import Mathlib.Logic.Relation
import PowerMonitor.Storage.SdStorage

/-! # The mirror of the counter

The health repeats the counter of the sequences for the rest of the device: the next sequence, the floor below it
and the newest sequence. A recovery, an append and an advance of the floor write all of them when they succeed.
A reservation of a gap moves the counter alone, and leaves the next sequence and the floor of the health behind
(`agrees_iff`). -/

namespace PowerMonitor.Storage.HealthMirror

open PowerMonitor.Lib.Binary PowerMonitor.Lib.Program PowerMonitor.Lib.Json
open PowerMonitor.Storage.Reading PowerMonitor.Storage.Media PowerMonitor.Storage.SdStorage
open Relation (ReflTransGen)

/-- The health agrees with the counter. -/
structure Agrees (ram : Ram) : Prop where
  next : ram.health.nextSequence = ram.nextSequence
  floor : ram.health.sequenceFloor = ram.nextSequence - 1
  newest : ram.health.newestSequence < ram.nextSequence

inductive Operation
  | remountPreferred (requiredSequenceFloor : ℕ)
  | recover
  | append (record : IntervalRecord) (binding : CardBinding)
  | reserveUnavailableIntervals (count : ℕ) (binding : CardBinding)
  | advanceSequenceFloor (acknowledgedSequence : ℕ) (binding : CardBinding)

def Operation.program (j : JsonLibrary) (fingerprint : Bytes) (ram : Ram) : Operation → CardProg (Ram × Bool)
  | .remountPreferred requiredSequenceFloor => SdStorage.remountPreferred j fingerprint requiredSequenceFloor ram
  | .recover => SdStorage.recover j ram
  | .append record binding => SdStorage.append j fingerprint record binding ram
  | .reserveUnavailableIntervals count binding =>
    SdStorage.reserveUnavailableIntervals j fingerprint count binding ram
  | .advanceSequenceFloor acknowledgedSequence binding =>
    SdStorage.advanceSequenceFloor j fingerprint acknowledgedSequence binding ram

/-- The card and the variables of the storage. -/
structure World where
  card : Card := ∅
  ram : Ram := {}

/-- An operation that ends, with its result. Its file operations may fail. -/
structure Runs (j : JsonLibrary) (fingerprint : Bytes) (w : World) (o : Operation) (ok : Bool) (w' : World) : Prop where
  run : ∃ events rest, run device (o.program j fingerprint w.ram) events w.card = (w'.card, some ((w'.ram, ok), rest))

/-- One step: an operation that succeeds or fails, or a loss of power and a new start. -/
inductive Step (j : JsonLibrary) (fingerprint : Bytes) (w : World) : World → Prop
  | operate (o : Operation) {ok : Bool} {w' : World} (hrun : Runs j fingerprint w o ok w') : Step j fingerprint w w'
  | restart (card : Card) : Step j fingerprint w { card := card }

/-- The operation writes the mirror, or changes nothing where the mirror agrees. -/
def Operation.Mirrors (ram : Ram) : Operation → Prop
  | .reserveUnavailableIntervals count _ => count = 0 ∧ Agrees ram
  | _ => True

/-- A step whose operation mirrors. -/
inductive MirroredStep (j : JsonLibrary) (fingerprint : Bytes) (w : World) : World → Prop
  | operate (o : Operation) {ok : Bool} {w' : World} (hrun : Runs j fingerprint w o ok w') (hmirrors : o.Mirrors w.ram) :
      MirroredStep j fingerprint w w'
  | restart (card : Card) : MirroredStep j fingerprint w { card := card }

variable {j : JsonLibrary} {fingerprint : Bytes} {binding : CardBinding} {ram : Ram} {w w' : World}

/-! ### What each operation does -/

/-- The mirror is not ahead of the counter, and the newest sequence is below it. -/
structure Behind (ram : Ram) : Prop where
  next : ram.health.nextSequence ≤ ram.nextSequence
  newest : ram.health.newestSequence < ram.nextSequence

/-- An operation that writes the mirror whenever it succeeds, and never spoils it. -/
def Refreshes (ram : Ram) (result : Ram × Bool) : Prop :=
  Behind result.1 ∧ (result.2 = true → Agrees result.1) ∧ (Agrees ram → Agrees result.1)

theorem agrees_behind (h : Agrees ram) : Behind ram := ⟨h.next.le, h.newest⟩

theorem refreshes_of_agrees {ram' : Ram} {ok : Bool} (h : Agrees ram') : Refreshes ram (ram', ok) :=
  ⟨agrees_behind h, fun _ => h, fun _ => h⟩

/-- A failure that leaves the mirror and the counter. -/
theorem refreshes_failed {ram' : Ram} (h : Behind ram) (hnext : ram'.nextSequence = ram.nextSequence)
    (hmirror : ram'.health.nextSequence = ram.health.nextSequence)
    (hfloor : ram'.health.sequenceFloor = ram.health.sequenceFloor)
    (hnewest : ram'.health.newestSequence = ram.health.newestSequence) : Refreshes ram (ram', false) := by
  refine ⟨⟨?_, ?_⟩, fun hok => (by cases hok), fun hagrees => ⟨?_, ?_, ?_⟩⟩
  · rw [hmirror, hnext]
    exact h.next
  · rw [hnewest, hnext]
    exact h.newest
  · rw [hmirror, hnext]
    exact hagrees.next
  · rw [hfloor, hnext]
    exact hagrees.floor
  · rw [hnewest, hnext]
    exact hagrees.newest

theorem agrees_appended (ram : Ram) (record : IntervalRecord) : Agrees (Ram.appended ram record) := by
  constructor
  · rfl
  · rfl
  · exact Nat.lt_succ_self _

theorem returns_append (h : Behind ram) (record : IntervalRecord) :
    (append j fingerprint record binding ram).Returns (Refreshes ram) := by
  have hrefused : Refreshes ram (ram, false) := refreshes_failed h rfl rfl rfl rfl
  unfold append
  refine Prog.returns_ite (fun _ => hrefused) fun _ => Prog.returns_bind fun _ => ?_
  refine Prog.returns_ite (fun _ => hrefused) fun _ => Prog.returns_bind fun _ => ?_
  refine Prog.returns_ite (fun _ => hrefused) fun _ => Prog.returns_bind fun _ => ?_
  refine Prog.returns_ite (fun _ => hrefused) fun _ => Prog.returns_bind fun _ => ?_
  refine Prog.returns_ite (fun _ => hrefused) fun _ => Prog.returns_bind fun written => ?_
  cases written with
  | none => exact hrefused
  | some written =>
    refine Prog.returns_ite (fun _ => refreshes_failed h rfl rfl rfl rfl) fun _ => ?_
    unfold finishAppend
    refine Prog.returns_bind fun _ => Prog.returns_bind fun _ => Prog.returns_bind fun _ => ?_
    refine Prog.returns_ite (fun _ => hrefused) fun _ => Prog.returns_bind fun _ => ?_
    refine Prog.returns_ite (fun _ => hrefused) fun _ => Prog.returns_bind fun _ => ?_
    exact refreshes_of_agrees (agrees_appended ram record)

theorem agrees_floorChecked (h : Behind ram) (conflict ready inProgress : Bool) :
    Agrees (Ram.floorChecked ram conflict ready inProgress) := ⟨rfl, rfl, h.newest⟩

theorem returns_advance (h : Behind ram) (acknowledgedSequence : ℕ) :
    (advanceSequenceFloor j fingerprint acknowledgedSequence binding ram).Returns (Refreshes ram) := by
  unfold advanceSequenceFloor
  refine Prog.returns_bind fun _ => Prog.returns_ite (fun _ => refreshes_failed h rfl rfl rfl rfl) fun _ => ?_
  refine Prog.returns_ite (fun _ => refreshes_of_agrees (agrees_floorChecked h _ _ _)) fun _ => ?_
  refine Prog.returns_ite (fun _ => refreshes_of_agrees (agrees_floorChecked h _ _ _))
    fun hvalid => Prog.returns_bind fun _ => ?_
  refine Prog.returns_ite (fun _ => refreshes_of_agrees ⟨rfl, rfl, ?_⟩)
    fun _ => refreshes_failed h rfl rfl rfl rfl
  -- the newest sequence is at most the one that is acknowledged
  simp only [Bool.not_eq_true', Bool.and_eq_true, decide_eq_true_eq, Bool.not_eq_false] at hvalid
  have hle : ram.health.newestSequence ≤ acknowledgedSequence := hvalid.1.2
  simp only [Ram.advanced]
  omega

theorem returns_recover (h : Behind ram) : (recover j ram).Returns (Refreshes ram) := by
  unfold recover recoverFloor
  refine Prog.returns_bind fun _ => Prog.returns_bind fun t => ?_
  have htallied : Refreshes ram (Ram.tallied ram t, false) := refreshes_failed h rfl rfl rfl rfl
  refine Prog.returns_bind fun _ => Prog.returns_bind fun _ => Prog.returns_bind fun _ => Prog.returns_bind fun _ => ?_
  refine Prog.returns_ite (fun _ => htallied) fun _ => ?_
  refine Prog.returns_ite (fun _ => refreshes_failed h rfl rfl rfl rfl) fun _ => ?_
  refine refreshes_of_agrees ⟨rfl, rfl, ?_⟩
  exact Nat.lt_succ_of_le (le_max_left _ _)

/-- A mounted card: the floor is recovered, and raised to the one that is required. -/
theorem returns_remount (h : Behind ram) (requiredSequenceFloor : ℕ) :
    (remountPreferred j fingerprint requiredSequenceFloor ram).Returns (Refreshes ram) := by
  have hmounting : Behind (Ram.mounting ram) := ⟨h.next, h.newest⟩
  unfold remountPreferred
  refine Prog.returns_bind fun _ => Prog.returns_bind fun _ => ?_
  refine Prog.returns_ite (fun _ => refreshes_failed h rfl rfl rfl rfl) fun _ => ?_
  refine (returns_recover hmounting).bind fun ⟨recovered, ok⟩ hrecovered => ?_
  refine Prog.returns_ite (fun _ => ?_) fun hok => ?_
  · exact ⟨hrecovered.1, fun hcontra => (by cases hcontra), fun hagrees => hrecovered.2.2 ⟨hagrees.1, hagrees.2, hagrees.3⟩⟩
  · have hagrees : Agrees recovered := hrecovered.2.1 (by simpa using hok)
    refine Prog.returns_ite (fun _ => refreshes_of_agrees ⟨hagrees.1, hagrees.2, hagrees.3⟩) fun _ => ?_
    refine Prog.Returns.bind (returns_advance ?_ requiredSequenceFloor) fun ⟨advanced, ready⟩ hadvanced => ?_
    · exact ⟨hagrees.next.le, hagrees.newest⟩
    · have hkept : Agrees advanced := hadvanced.2.2 ⟨hagrees.1, hagrees.2, hagrees.3⟩
      exact refreshes_of_agrees ⟨hkept.1, hkept.2, hkept.3⟩

/-- A reservation moves the counter and not the mirror. -/
theorem returns_reserve (h : Behind ram) (count : ℕ) :
    (reserveUnavailableIntervals j fingerprint count binding ram).Returns fun result =>
      result.1 = ram ∧ (result.2 = true → count = 0) ∨
        count ≠ 0 ∧ result = (Ram.reserved ram count, true) ∧ Behind result.1 := by
  have hrefused : (ram, false).1 = ram ∧ ((ram, false).2 = true → count = 0) ∨
      count ≠ 0 ∧ (ram, false) = (Ram.reserved ram count, true) ∧ Behind (ram, false).1 :=
    Or.inl ⟨rfl, fun hok => (by cases hok)⟩
  unfold reserveUnavailableIntervals
  refine Prog.returns_ite (fun hzero => Or.inl ⟨rfl, fun _ => hzero⟩) fun hpositive => ?_
  refine Prog.returns_ite (fun _ => hrefused) fun _ => Prog.returns_bind fun _ => ?_
  refine Prog.returns_ite (fun _ => hrefused) fun _ => Prog.returns_bind fun _ => ?_
  refine Prog.returns_ite (fun _ => hrefused) fun _ => Prog.returns_bind fun _ => ?_
  refine Prog.returns_ite (fun _ => hrefused) fun _ => Or.inr ⟨hpositive, rfl, ?_, ?_⟩
  · have hnext := h.next
    simp only [Ram.reserved]
    omega
  · have hnewest := h.newest
    simp only [Ram.reserved]
    omega

/-! ### Runs -/

theorem Runs.returns {o : Operation} {ok : Bool} {R : Ram × Bool → Prop} (hrun : Runs j fingerprint w o ok w')
    (h : (o.program j fingerprint w.ram).Returns R) : R (w'.ram, ok) := by
  obtain ⟨events, rest, hout⟩ := hrun.run
  exact h.of_run (congrArg Prod.snd hout)

theorem behind_initial : Behind {} := ⟨Nat.le_refl _, Nat.zero_lt_one⟩

theorem agrees_initial : Agrees {} := ⟨rfl, rfl, Nat.zero_lt_one⟩

/-- **What one step preserves.** -/
theorem Step.behind (hstep : Step j fingerprint w w') (h : Behind w.ram) : Behind w'.ram := by
  cases hstep with
  | restart card => exact behind_initial
  | operate o hrun =>
    cases o with
    | remountPreferred requiredSequenceFloor => exact (hrun.returns (returns_remount h requiredSequenceFloor)).1
    | recover => exact (hrun.returns (returns_recover h)).1
    | append record binding => exact (hrun.returns (returns_append h record)).1
    | advanceSequenceFloor acknowledgedSequence binding =>
      exact (hrun.returns (returns_advance h acknowledgedSequence)).1
    | reserveUnavailableIntervals count binding =>
      obtain ⟨hsame, -⟩ | ⟨-, -, hbehind⟩ := hrun.returns (returns_reserve h count)
      · have hram : w'.ram = w.ram := hsame
        rw [hram]
        exact h
      · exact hbehind

theorem behind_run (hrun : ReflTransGen (Step j fingerprint) { card := card } w) : Behind w.ram := by
  induction hrun with
  | refl => exact behind_initial
  | tail _ hstep ih => exact hstep.behind ih

/-- **After an operation that succeeds**, the mirror agrees exactly if the operation mirrors. -/
theorem Runs.agrees_after {o : Operation} (hrun : Runs j fingerprint w o true w') (h : Behind w.ram) :
    Agrees w'.ram ↔ o.Mirrors w.ram := by
  cases o with
  | remountPreferred requiredSequenceFloor =>
    exact iff_of_true ((hrun.returns (returns_remount h requiredSequenceFloor)).2.1 rfl) trivial
  | recover => exact iff_of_true ((hrun.returns (returns_recover h)).2.1 rfl) trivial
  | append record binding => exact iff_of_true ((hrun.returns (returns_append h record)).2.1 rfl) trivial
  | advanceSequenceFloor acknowledgedSequence binding =>
    exact iff_of_true ((hrun.returns (returns_advance h acknowledgedSequence)).2.1 rfl) trivial
  | reserveUnavailableIntervals count binding =>
    obtain ⟨hsame, hzero⟩ | ⟨hpositive, hreserved, -⟩ := hrun.returns (returns_reserve h count)
    · have hram : w'.ram = w.ram := hsame
      rw [hram]
      exact ⟨fun hagrees => ⟨hzero rfl, hagrees⟩, fun hmirrors => hmirrors.2⟩
    · have hram : w'.ram = Ram.reserved w.ram count := congrArg Prod.fst hreserved
      refine iff_of_false (fun hagrees => ?_) fun hmirrors => hpositive hmirrors.1
      -- the mirror is still at most the counter of before
      have hnext := hagrees.next
      have hbehind := h.next
      rw [hram] at hnext
      simp only [Ram.reserved] at hnext
      omega

theorem MirroredStep.step (hstep : MirroredStep j fingerprint w w') : Step j fingerprint w w' := by
  cases hstep with
  | operate o hrun _ => exact .operate o hrun
  | restart card => exact .restart card

theorem MirroredStep.agrees (hstep : MirroredStep j fingerprint w w') (h : Agrees w.ram) : Agrees w'.ram := by
  have hbehind := agrees_behind h
  cases hstep with
  | restart card => exact agrees_initial
  | operate o hrun hmirrors =>
    cases o with
    | remountPreferred requiredSequenceFloor =>
      exact (hrun.returns (returns_remount hbehind requiredSequenceFloor)).2.2 h
    | recover => exact (hrun.returns (returns_recover hbehind)).2.2 h
    | append record binding => exact (hrun.returns (returns_append hbehind record)).2.2 h
    | advanceSequenceFloor acknowledgedSequence binding =>
      exact (hrun.returns (returns_advance hbehind acknowledgedSequence)).2.2 h
    | reserveUnavailableIntervals count binding =>
      obtain ⟨hsame, -⟩ | ⟨hpositive, -⟩ := hrun.returns (returns_reserve hbehind count)
      · have hram : w'.ram = w.ram := hsame
        rw [hram]
        exact h
      · exact absurd hmirrors.1 hpositive

/-- **The mirror and the counter.** In every run the mirror agrees after an operation that succeeds exactly if
the operation mirrors; and it always agrees in a run whose operations all do. -/
theorem agrees_iff (j : JsonLibrary) (fingerprint : Bytes) (card : Card) :
    (∀ w o w', ReflTransGen (Step j fingerprint) { card := card } w → Runs j fingerprint w o true w' →
      (Agrees w'.ram ↔ o.Mirrors w.ram)) ∧
    (∀ w, ReflTransGen (MirroredStep j fingerprint) { card := card } w → Agrees w.ram) := by
  constructor
  · intro w o w' hrun hlast
    exact hlast.agrees_after (behind_run hrun)
  · intro w hrun
    induction hrun with
    | refl => exact agrees_initial
    | tail _ hstep ih => exact hstep.agrees ih

/-! ### A gap -/

def works : List Event := List.replicate 40 .done

/-- The world after an operation whose file operations work. -/
def World.after (w : World) (o : Operation) : World :=
  let out := run device (o.program textJson [] w.ram) works w.card
  { card := out.1, ram := (out.2.map fun result => result.1.1).getD w.ram }

theorem runs_after {o : Operation} {ok : Bool}
    (h : (run device (o.program textJson [] w.ram) works w.card).2.map (fun result => result.1.2) = some ok) :
    Runs textJson [] w o ok (w.after o) := by
  obtain ⟨⟨⟨ram, result⟩, rest⟩, hanswer, hok⟩ := Option.map_eq_some_iff.mp h
  have hresult : result = ok := hok
  refine ⟨works, rest, Prod.ext rfl ?_⟩
  rw [hanswer]
  simp [World.after, hanswer, hresult]

/-- A blank card is mounted. -/
def fresh : World := ({ card := ∅ } : World).after (.remountPreferred 0)

/-- Two intervals are lost on it. -/
def gap : World := fresh.after (.reserveUnavailableIntervals 2 {})

theorem fresh_runs : Runs textJson [] { card := ∅ } (.remountPreferred 0) true fresh :=
  runs_after (by decide +kernel)

theorem gap_runs : Runs textJson [] fresh (.reserveUnavailableIntervals 2 {}) true gap :=
  runs_after (by decide +kernel)

theorem fresh_reached : ReflTransGen (Step textJson []) { card := ∅ } fresh := .single (.operate _ fresh_runs)

/-- The counter is past the gap, the next sequence of the health is not. -/
theorem gap_disagrees : ¬ ∀ w o w', ReflTransGen (Step textJson []) { card := ∅ } w →
    Runs textJson [] w o true w' → Agrees w'.ram := by
  intro hclaim
  have hagrees := (hclaim fresh _ gap fresh_reached gap_runs).next
  have hbehind : gap.ram.health.nextSequence ≠ gap.ram.nextSequence := by decide +kernel
  exact hbehind hagrees

/-- The mount mirrors, and the reservation on the mounted card does not. -/
theorem agrees_iff_gap : Agrees fresh.ram ∧ ¬ Agrees gap.ram :=
  ⟨((agrees_iff textJson [] ∅).1 _ _ _ .refl fresh_runs).mpr trivial,
    fun hagrees => absurd (((agrees_iff textJson [] ∅).1 _ _ _ fresh_reached gap_runs).mp hagrees).1 (by decide)⟩

end PowerMonitor.Storage.HealthMirror
