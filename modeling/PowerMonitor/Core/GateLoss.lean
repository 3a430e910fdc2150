import PowerMonitor.Core.AggregationTask

/-! # What the gates of a reset cost

A record that was finished is given to the storage, held for the end of the reset, staged, or counted as dropped,
if the gates do not move at the wrong moment. Two moments are wrong: a gate is closed with two records held
already, and the storage closes between the task's look at it and its own. A held record leaves with the next
open pass only if the freeze was seen. -/

namespace PowerMonitor.Core.GateLoss

open PowerMonitor.Lib.Program PowerMonitor.Storage.Reading
open PowerMonitor.Core.IntervalAggregator PowerMonitor.Core.Aggregation PowerMonitor.Core.AggregationTask

/-! ### Accounts -/

/-- Every finished record is in the queue, held, staged or counted, as often as it was finished. -/
def Owes (held : List IntervalRecord) (l : Ledger) : Prop :=
  ∀ r, l.returned.count r ≤ l.enqueued.count r + held.count r + l.staged.count r + l.dropped.count r

abbrev Accounted (t : Task) (l : Ledger) : Prop := Owes t.resetBoundaryRecords l

variable {held : List IntervalRecord} {record : IntervalRecord} {l : Ledger}

theorem owes_nothing (held : List IntervalRecord) : Owes held {} := fun _ => Nat.zero_le _

theorem Owes.keep (h : Owes held l) : Owes (record :: held) l := by
  intro r
  have hr := h r
  have hle : held.count r ≤ (record :: held).count r := List.count_le_count_cons
  omega

theorem Owes.finish (h : Owes held l) : Owes (held ++ [record]) { l with returned := l.returned ++ [record] } := by
  intro r
  have hr := h r
  simp only [List.count_append]
  omega

theorem Owes.front (h : Owes (held ++ [record]) l) : Owes (record :: held) l := by
  intro r
  have hr := h r
  have hcount : (held ++ [record]).count r = (record :: held).count r :=
    (List.perm_append_singleton record held).count_eq r
  omega

theorem Owes.enqueue (h : Owes (record :: held) l) : Owes held { l with enqueued := l.enqueued ++ [record] } := by
  intro r
  have hr := h r
  simp only [List.count_append]
  rw [List.count_cons] at hr
  have hone : [record].count r = if record == r then 1 else 0 := List.count_singleton
  omega

theorem Owes.drop (h : Owes (record :: held) l) : Owes held { l with dropped := l.dropped ++ [record] } := by
  intro r
  have hr := h r
  simp only [List.count_append]
  rw [List.count_cons] at hr
  have hone : [record].count r = if record == r then 1 else 0 := List.count_singleton
  omega

theorem Owes.stage (h : Owes held l) : Owes [] { l with staged := l.staged ++ held } := by
  intro r
  have hr := h r
  simp only [List.count_append, List.count_nil]
  omega

/-! ### The moments -/

/-- There is room for one more record when the task goes on: it gives all it holds away first if it saw the freeze. -/
def Room (t : Task) : Prop := t.resetGateObserved = true ∨ t.resetBoundaryRecords.length < 2

/-- **The gates do not move at the wrong moment** of a pass: a gate that is closed when a record was finished finds
room for it, and the storage stays open until it has the record. -/
def Lossless (t : Task) (o : Op) (e : Moment) (_ : Ledger) : Prop :=
  match o with
  | .dataResetFrozen .closing => e.dataResetFrozen = false ∨ Room t
  | .recordWritesEnabled .closing => e.recordWritesEnabled = true ∨ Room t
  | .recordWritesEnabled .offering => e.recordWritesEnabled = true
  | _ => True

/-- The gates are open throughout, and the storage takes what it is given. -/
def Open (o : Op) (e : Moment) (_ : Ledger) : Prop :=
  match o with
  | .dataResetFrozen _ => e.dataResetFrozen = false
  | .recordWritesEnabled _ => e.recordWritesEnabled = true
  | .acquire _ | .send _ => e.succeeds = true
  | _ => True

/-- The generation of the held records is still the current one, and their offset is stored. -/
def Admits (t : Task) (o : Op) (e : Moment) (_ : Ledger) : Prop :=
  match o with
  | .dataGeneration .flushing => e.dataGeneration = t.resetPausedGeneration
  | .setEnergyOffsetWh .flushing _ => e.succeeds = true
  | _ => True

/-- The task and its ledger after any number of passes whose moments `A` admits. -/
inductive Runs (A : Task → Op → Moment → Ledger → Prop) : Task → Ledger → Prop
  | boot (offsetWh baselineAbsoluteWh : UInt64) : Runs A (Task.boot offsetWh baselineAbsoluteWh) {}
  | pass {t t' : Task} {l l' : Ledger} (h : Runs A t l) (moments : List Moment)
      (hadmits : Along world (A t) (iterate t) moments l)
      (hpass : run world (iterate t) moments l = (l', some (t', []))) : Runs A t' l'

/-! ### Whatever the gates do -/

/-- A part of the task, with what it promises of its end. -/
abbrev Ends {α : Type} (A : Op → Moment → Ledger → Prop) (p : TaskProg α) (Q : α → Ledger → Prop) (l : Ledger) : Prop :=
  wp world A (fun _ => True) p Q l

variable {A : Op → Moment → Ledger → Prop} {α β : Type} {Q : β → Ledger → Prop} {t : Task}

theorem ends_op {o : Op} {f : Ans o → TaskProg β}
    (h : ∀ e, A o e l → Ends A (f (world.act o e l).2) Q (world.act o e l).1) : Ends A (Prog.op o >>= f) Q l :=
  ⟨trivial, h⟩

theorem ends_bind {p : TaskProg α} {f : α → TaskProg β} (h : Ends A p (fun a => Ends A (f a) Q) l) :
    Ends A (p >>= f) Q l := wp_bind'.mpr h

theorem ends_ite {c : Prop} [Decidable c] {p q : TaskProg β} (hp : c → Ends A p Q l) (hq : ¬ c → Ends A q Q l) :
    Ends A (if c then p else q) Q l := by
  split
  · next hc => exact hp hc
  · next hc => exact hq hc

/-- What is done where a gate is open, or where something succeeds. -/
theorem ends_open {b : Bool} {p q : TaskProg β} (hb : b = true) (hq : Ends A q Q l) :
    Ends A (if !b then p else q) Q l := by
  subst hb
  exact hq

/-- After either of two parts. -/
theorem ends_either {c : Prop} [Decidable c] {p q : TaskProg α} {f : α → TaskProg β}
    (hp : c → Ends A p (fun a => Ends A (f a) Q) l) (hq : ¬ c → Ends A q (fun a => Ends A (f a) Q) l) :
    Ends A (if c then p >>= f else q >>= f) Q l := by
  exact ends_ite (fun hc => ends_bind (hp hc)) fun hc => ends_bind (hq hc)

/-- A record that is given to the storage is in the queue or counted as dropped, unless the storage is closed. -/
theorem ends_enqueueRecord (place : Place) (h : Owes (record :: held) l) :
    Ends A (enqueueRecord place record) (fun queued l' =>
      Owes (record :: held) l' ∧
        (queued = true ∨ (∀ e l, A (.recordWritesEnabled place) e l → e.recordWritesEnabled = true) → Owes held l')) l := by
  unfold enqueueRecord
  -- a look at the storage that finds it closed
  have hclosed : ∀ {e : Moment}, A (.recordWritesEnabled place) e l → (!e.recordWritesEnabled) = true →
      false = true ∨ (∀ e l, A (.recordWritesEnabled place) e l → e.recordWritesEnabled = true) → Owes held l := by
    intro e he hnot hor
    have henabled := hor.resolve_left Bool.false_ne_true e l he
    rw [henabled] at hnot
    exact absurd hnot Bool.false_ne_true
  have hdropped : Owes held { l with dropped := l.dropped ++ [record] } := h.drop
  refine ends_op fun e he => ends_ite (fun hnot => ⟨h, hclosed he hnot⟩) fun _ => ?_
  refine ends_op fun e he => ends_ite (fun hnot => ⟨h, hclosed he hnot⟩) fun _ => ?_
  refine ends_op fun e _ => ends_ite (fun _ => ?_) fun _ => ?_
  · exact ends_op fun _ _ => ⟨hdropped.keep, fun _ => hdropped⟩
  refine ends_op fun e _ => ?_
  show Ends A (if !e.succeeds then _ else _) _ (if e.succeeds then _ else l)
  by_cases hsent : e.succeeds = true
  · rw [if_pos hsent, if_neg (by simp [hsent])]
    exact ⟨h.enqueue.keep, fun _ => h.enqueue⟩
  · rw [if_neg hsent, if_pos (by simp [hsent])]
    exact ends_op fun _ _ => ⟨hdropped.keep, fun _ => hdropped⟩

/-- Records that are staged are in the drain journal. -/
theorem ends_stageRecordsForDataReset (offsetWh : UInt64) (h : Owes held l) :
    Ends A (stageRecordsForDataReset held offsetWh) (fun staged l' => Owes (if staged then [] else held) l') l := by
  unfold stageRecordsForDataReset
  -- a look at the barrier leaves the ledger as it is
  have hlook : ∀ {f : Bool → TaskProg Bool} {Q : Bool → Ledger → Prop}, (∀ enabled, Ends A (f enabled) Q l) →
      Ends A (do
        let active ← producerBarrierActive
        let enabled ← if active then recordWritesEnabled .staging else pure true
        f enabled) Q l := by
    intro f Q hf
    refine ends_op fun e _ => ends_either (fun _ => ?_) fun _ => ?_
    · exact ⟨trivial, fun _ _ => hf _⟩
    · exact hf true
  refine ends_ite (fun _ => h) fun _ => ?_
  refine hlook fun enabled => ends_ite (fun _ => h) fun _ => ?_
  refine hlook fun enabled => ends_ite (fun _ => h) fun _ => ?_
  refine ⟨trivial, fun e _ => ?_⟩
  show Owes (if e.succeeds then [] else held) (if e.succeeds then _ else l)
  split
  · exact h.stage
  · exact h

theorem ends_drain (h : Accounted t l) : Ends A (drain t) Accounted l := by
  unfold drain
  have hquiesced : ∀ staged l', Owes (if staged then [] else t.resetBoundaryRecords) l' →
      Ends A (if !staged then pure t else do
        markDataResetProducerQuiesced
        return { t with resetBoundaryRecords := [], resetDrainComplete := true }) Accounted l' := by
    intro staged l' hl'
    cases staged with
    | false => exact hl'
    | true => exact ends_op fun _ _ => hl'
  refine ends_either (fun hnone => hquiesced true l (hnone ▸ h)) fun _ => ?_
  exact wp_post (ends_stageRecordsForDataReset _ h) hquiesced

theorem ends_closeOrDrain (h : Accounted t l) : Ends A (closeOrDrain t) Accounted l := by
  unfold closeOrDrain
  split
  · refine ends_ite (fun _ => ends_ite (fun _ => h) fun _ => ?_) fun _ => ends_drain h
    exact ends_op fun _ _ => ends_op fun _ _ => h.finish
  · exact ends_drain h

/-- A pass that finds the measurement frozen loses nothing. -/
theorem ends_frozenPass (h : Accounted t l) : Ends A (frozenPass t) Accounted l := by
  unfold frozenPass
  have hobserved : Ends A (observeGate t) Accounted l := ends_ite (fun _ => h) fun _ => ends_op fun _ _ => h
  refine ends_bind (wp_post hobserved fun t' l' h' => ends_op fun e _ => ?_)
  exact ends_ite (fun _ => h') fun _ => ends_op fun e _ => ends_closeOrDrain h'

theorem ends_flush (records : List IntervalRecord) : ∀ {l : Ledger}, Owes records l →
    Ends A (flush records) (fun left l' => Owes left l') l := by
  induction records with
  | nil => exact fun h => h
  | cons record records ih =>
    intro l h
    refine ends_bind (wp_post (ends_enqueueRecord .flushing h) fun queued l' hl' => ?_)
    exact ends_ite (fun hqueued => ih (hl'.2 (Or.inl hqueued))) fun _ => hl'.1

theorem ends_flushBoundary (h : Accounted t l) : Ends A (flushBoundary t) Accounted l := by
  unfold flushBoundary
  have hgive : ∀ queued : Bool, Ends A (if !queued then pure t else do
      let left ← flush t.resetBoundaryRecords
      return { t with resetBoundaryRecords := left }) Accounted l := fun queued =>
    ends_ite (fun _ => h) fun _ => ends_bind (ends_flush _ h)
  refine ends_op fun e _ => ends_either (fun _ => ?_) fun _ => hgive false
  exact ⟨trivial, fun _ _ => hgive _⟩

/-- A task that goes on holds nothing any more. -/
theorem ends_goOn (h : Accounted t l) :
    Ends A (goOn t) (fun r l' => Accounted r.2 l' ∧ (r.1 = true → r.2.resetBoundaryRecords = [])) l := by
  unfold goOn
  refine ends_ite (fun _ => ⟨h, fun hfalse => absurd hfalse Bool.false_ne_true⟩) fun hnone => ?_
  rw [not_not] at hnone
  refine ends_op fun e _ => ends_ite (fun _ => ?_) fun _ => ⟨h, fun _ => hnone⟩
  exact ends_op fun _ _ => ⟨h, fun _ => hnone⟩

theorem ends_resume (h : Accounted t l) :
    Ends A (resume t) (fun r l' => Accounted r.2 l' ∧ (r.1 = true → r.2.resetBoundaryRecords = [])) l := by
  unfold resume
  exact ends_either (fun _ => ends_goOn h) fun _ => wp_post (ends_flushBoundary h) fun t' l' => ends_goOn

/-! ### No record is lost -/

variable {t₀ : Task}

theorem ends_settleRecord (arrival : Arrival) (hroom : Room t₀ → t.resetBoundaryRecords.length < 2)
    (h : Owes (t.resetBoundaryRecords ++ [record]) l) : Ends (Lossless t₀) (settleRecord t record arrival) Accounted l := by
  unfold settleRecord
  have hheld : Room t₀ → Owes (if 2 ≤ t.resetBoundaryRecords.length then t.resetBoundaryRecords
      else t.resetBoundaryRecords ++ [record]) l := by
    intro hr
    have hlength := hroom hr
    rw [if_neg (by omega)]
    exact h
  have hoffered : Ends (Lossless t₀) (do
      let _ ← enqueueRecord .offering record
      return t) Accounted l := by
    have hopen : ∀ e l, Lossless t₀ (.recordWritesEnabled .offering) e l → e.recordWritesEnabled = true :=
      fun _ _ he => he
    exact ends_bind (wp_post (ends_enqueueRecord .offering h.front) fun _ _ hl' => hl'.2 (Or.inr hopen))
  refine ends_op fun e he => ends_either (fun hfrozen => ?_) fun _ => ⟨trivial, fun e he => ?_⟩
  · have hr : Room t₀ := he.resolve_left fun hnot => Bool.false_ne_true (hnot.symm.trans hfrozen)
    exact hheld hr
  · refine ends_ite (fun hclosed => ?_) fun _ => hoffered
    have hr : Room t₀ := he.resolve_left fun hopen => Bool.false_ne_true ((congrArg not hopen).symm.trans hclosed)
    exact hheld hr

theorem ends_closeInterval (setting : Setting) (arrival : Arrival)
    (hroom : Room t₀ → t.resetBoundaryRecords.length < 2) (h : Accounted t l) :
    Ends (Lossless t₀) (closeInterval t setting arrival) Accounted l := by
  unfold closeInterval
  refine ends_op fun e _ => ends_op fun _ _ => ?_
  refine ends_bind (wp_post (ends_settleRecord arrival hroom h.finish) fun t' l' h' => ?_)
  refine ends_op fun e _ => ends_either (fun _ => h') fun _ => ?_
  exact ⟨trivial, fun _ _ => h'⟩

theorem ends_ordinaryPass (hroom : Room t₀ → t.resetBoundaryRecords.length < 2) (h : Accounted t l) :
    Ends (Lossless t₀) (ordinaryPass t) Accounted l := by
  unfold ordinaryPass
  refine ends_op fun e _ => ?_
  split
  · exact h
  · next arrival _ =>
    refine ends_op fun e _ => ends_op fun e' _ => ends_ite (fun _ => h) fun _ => ?_
    refine ends_op fun e _ => ends_ite (fun _ => ?_) fun _ => h
    exact ends_closeInterval _ arrival hroom h

/-- **One pass**, whose gates do not move at the wrong moment, keeps the accounts. -/
theorem ends_iterate (h : Accounted t l) : Ends (Lossless t) (iterate t) Accounted l := by
  unfold iterate
  refine ends_op fun e _ => ends_ite (fun _ => ends_frozenPass h) fun _ => ?_
  have hgoes : ∀ (r : Bool × Task) l', Accounted r.2 l' →
      (r.1 = true → Room t → r.2.resetBoundaryRecords.length < 2) →
      Ends (Lossless t) (if !r.1 then pure r.2 else ordinaryPass r.2) Accounted l' := by
    intro r l' h' hroom
    refine ends_ite (fun _ => h') fun hon => ends_ordinaryPass (hroom ?_) h'
    simpa using hon
  refine ends_either (fun _ => ?_) fun hobserved => ?_
  · refine wp_post (ends_resume h) fun r l' hr => hgoes r l' hr.1 fun hon _ => ?_
    rw [hr.2 hon]
    exact Nat.zero_lt_two
  · exact hgoes (true, t) l h fun _ hroom => hroom.resolve_left hobserved

theorem accounted_of_runs (h : Runs Lossless t l) : Accounted t l := by
  induction h with
  | boot offsetWh baselineAbsoluteWh => exact owes_nothing _
  | pass _ moments hadmits hpass ih =>
    have hends := wp_run (ends_iterate ih) hadmits
    rw [hpass] at hends
    exact hends

/-! ### What an open pass leaves -/

theorem open_enqueueRecord (place : Place) (hopen : ∀ o e l, A o e l → Open o e l) :
    Ends A (enqueueRecord place record) (fun queued _ => queued = true) l := by
  unfold enqueueRecord
  refine ends_op fun e he => ?_
  refine ends_open (hopen _ e l he) ?_
  refine ends_op fun e he => ?_
  refine ends_open (hopen _ e l he) ?_
  refine ends_op fun e he => ?_
  refine ends_open (hopen _ e l he) ?_
  refine ends_op fun e he => ?_
  refine ends_open (hopen _ e l he) ?_
  exact rfl

theorem open_flush (hopen : ∀ o e l, A o e l → Open o e l) (records : List IntervalRecord) : ∀ {l : Ledger},
    Ends A (flush records) (fun left _ => left = []) l := by
  induction records with
  | nil => exact rfl
  | cons record records ih =>
    refine ends_bind (wp_post (open_enqueueRecord .flushing hopen) fun queued l' hqueued => ?_)
    exact ends_ite (fun _ => ih) fun hnot => absurd hqueued hnot

theorem open_ordinaryPass (hopen : ∀ o e l, A o e l → Open o e l) :
    Ends A (ordinaryPass t) (fun t' _ => t'.resetBoundaryRecords = t.resetBoundaryRecords) l := by
  have hsettle : ∀ (t : Task) record arrival l, Ends A (settleRecord t record arrival) (fun t' _ => t' = t) l := by
    intro t record arrival l
    refine ends_op fun e he => ends_either (fun hfrozen => ?_) fun _ => ⟨trivial, fun e he => ?_⟩
    · have hnot : e.dataResetFrozen = false := hopen _ e l he
      exact absurd (hnot.symm.trans hfrozen) Bool.false_ne_true
    · refine ends_open (hopen _ e l he) ?_
      exact ends_bind (wp_post (open_enqueueRecord .offering hopen) fun _ _ _ => rfl)
  unfold ordinaryPass
  refine ends_op fun e _ => ?_
  split
  · exact rfl
  refine ends_op fun e _ => ends_op fun e' _ => ends_ite (fun _ => rfl) fun _ => ?_
  refine ends_op fun e _ => ends_ite (fun _ => ?_) fun _ => rfl
  refine ends_op fun e _ => ends_op fun _ _ => ends_bind (wp_post (hsettle _ _ _ _) ?_)
  rintro t' l' rfl
  refine ends_op fun e _ => ends_either (fun _ => rfl) fun _ => ?_
  exact ⟨trivial, fun _ _ => rfl⟩

theorem open_resume (hopen : ∀ o e l, A o e l → Open o e l) (hadmits : ∀ o e l, A o e l → Admits t o e l) :
    Ends A (resume t) (fun r _ => r.1 = true ∧ r.2.resetBoundaryRecords = []) l := by
  have hgoes : ∀ (t' : Task) l, t'.resetBoundaryRecords = [] →
      Ends A (goOn t') (fun r _ => r.1 = true ∧ r.2.resetBoundaryRecords = []) l := by
    intro t' l hnone
    refine ends_ite (fun hheld => absurd hnone hheld) fun _ => ?_
    refine ends_op fun e _ => ends_ite (fun _ => ?_) fun _ => ⟨rfl, hnone⟩
    exact ends_op fun _ _ => ⟨rfl, hnone⟩
  refine ends_either (hgoes t l) fun _ => ?_
  refine ends_op fun e he => ends_either (fun _ => ⟨trivial, fun e he => ?_⟩) fun hother => ?_
  · refine ends_open (hadmits _ e l he) ?_
    exact ends_bind (wp_post (open_flush hopen _) fun left l' hleft => hgoes _ _ hleft)
  · exact absurd (hadmits _ e l he) hother

/-- What is held leaves with a pass that finds the gates open, if the freeze was seen; else it stays. -/
theorem open_iterate :
    Ends (fun o e l => Open o e l ∧ Admits t o e l) (iterate t)
      (fun t' _ => t'.resetBoundaryRecords = if t.resetGateObserved then [] else t.resetBoundaryRecords) l := by
  have hopen : ∀ o e l, Open o e l ∧ Admits t o e l → Open o e l := fun _ _ _ h => h.1
  have hadmits : ∀ o e l, Open o e l ∧ Admits t o e l → Admits t o e l := fun _ _ _ h => h.2
  unfold iterate
  refine ends_op fun e he => ends_ite (fun hfrozen => ?_) fun _ => ?_
  · have hnot : e.dataResetFrozen = false := he.1
    exact absurd (hnot.symm.trans hfrozen) Bool.false_ne_true
  refine ends_either (fun hobserved => wp_post (open_resume hopen hadmits) fun r l' hr => ends_open hr.1 ?_) fun hobserved => ?_
  · rw [if_pos hobserved, ← hr.2]
    exact open_ordinaryPass hopen
  · rw [if_neg hobserved]
    exact open_ordinaryPass hopen

/-- **No record is lost** in any number of passes whose gates do not move at the wrong moment; and a pass that finds
them open leaves nothing held exactly if there was nothing, or the freeze was seen. -/
theorem gates_lossless (t : Task) (l : Ledger) :
    (Runs Lossless t l → Accounted t l) ∧
      (Runs (fun _ _ _ _ => True) t l → ∀ moments t' l',
        Along world (fun o e l => Open o e l ∧ Admits t o e l) (iterate t) moments l →
        run world (iterate t) moments l = (l', some (t', [])) →
        (t'.resetBoundaryRecords = [] ↔ t.resetBoundaryRecords = [] ∨ t.resetGateObserved = true)) := by
  refine ⟨fun h => accounted_of_runs h, fun _ moments t' l' halong hpass => ?_⟩
  have hends := wp_run open_iterate halong
  rw [hpass] at hends
  have hleft : t'.resetBoundaryRecords = if t.resetGateObserved then [] else t.resetBoundaryRecords := hends
  rw [hleft]
  split
  · next hobserved => exact ⟨fun _ => Or.inr hobserved, fun _ => rfl⟩
  · next hobserved => exact ⟨Or.inl, fun hor => hor.resolve_right hobserved⟩

/-- The gates are open and a sample is there. -/
def sampled (seconds : UInt64) : Moment where
  queue := [{ sample := (sampleAt seconds 500).sample }]

/-- A task that gathers the first sample of an interval. -/
def gathering : Task where
  gathering := (Gathering.boot 0 0).gather (sampleAt 1 500).sample

theorem runs_gathering (A : Task → Op → Moment → Ledger → Prop)
    (hA : Along world (A (Task.boot 0 0)) (iterate (Task.boot 0 0)) (List.replicate 5 (sampled 1)) {}) :
    Runs A gathering {} :=
  .pass (.boot 0 0) (List.replicate 5 (sampled 1)) hA (by decide)

/-- The moments of a pass that finds the measurement frozen. -/
def frozenMoments : List Moment := List.replicate 6 { dataResetFrozen := true }

/-- Such a pass finishes what was gathered and holds it; the next one gives it away. -/
theorem gates_lossless_frozen : ∃ t l t' l', t.resetBoundaryRecords ≠ [] ∧ Accounted t l ∧
    run world (iterate t) (List.replicate 9 {}) l = (l', some (t', [])) ∧ t'.resetBoundaryRecords = [] := by
  have hfirst : Runs Lossless gathering {} :=
    runs_gathering _ ⟨trivial, trivial, trivial, trivial, trivial, trivial⟩
  have hany : Runs (fun _ _ _ _ => True) gathering {} :=
    runs_gathering _ ⟨trivial, trivial, trivial, trivial, trivial, trivial⟩
  have hfrozen : Along world (Lossless gathering) (iterate gathering) frozenMoments {} :=
    ⟨trivial, trivial, trivial, trivial, trivial, trivial, trivial⟩
  have hheld := (gates_lossless _ _).1 (.pass hfirst frozenMoments hfrozen rfl)
  have hleft := (gates_lossless _ _).2 (.pass hany frozenMoments (by decide) rfl) (List.replicate 9 {}) _ _
    ⟨⟨rfl, trivial⟩, ⟨trivial, rfl⟩, ⟨trivial, rfl⟩, ⟨rfl, trivial⟩, ⟨rfl, trivial⟩, ⟨rfl, trivial⟩, ⟨rfl, trivial⟩,
      ⟨trivial, trivial⟩, ⟨trivial, trivial⟩, trivial⟩ rfl
  exact ⟨_, _, _, _, by decide, hheld, rfl, hleft.mpr (Or.inr rfl)⟩

/-- The record of the interval that ends a minute later. -/
def minuteRecord : IntervalRecord :=
  ((gathering.gathering.gather (sampleAt 61 500).sample).close {} (sampleAt 61 500).sample).1

/-- A pass in which a record is finished; the storage is closed at one moment of it. -/
def closedOnce (before after : ℕ) : List Moment :=
  List.replicate before (sampled 61) ++ { sampled 61 with recordWritesEnabled := false } ::
    List.replicate after (sampled 61)

/-- The storage closes between the task's look at it and its own: the record is nowhere. If it was closed at the
first look only, the record is held, and an open pass leaves it so. -/
theorem record_lost :
    (∃ t l, Runs (fun _ _ _ _ => True) t l ∧ ¬ Accounted t l) ∧
      ∃ t l t' l', Runs (fun _ _ _ _ => True) t l ∧ Along world Open (iterate t) [{}, {}] l ∧
        run world (iterate t) [{}, {}] l = (l', some (t', [])) ∧ t'.resetBoundaryRecords = [minuteRecord] := by
  constructor
  · refine ⟨_, _, .pass (runs_gathering _ (by decide)) (closedOnce 9 2) (by decide) rfl, fun h => ?_⟩
    exact absurd (h minuteRecord) (by decide)
  · exact ⟨_, _, _, _, .pass (runs_gathering _ (by decide)) (closedOnce 8 2) (by decide) rfl,
      ⟨rfl, trivial, trivial⟩, rfl, by decide⟩

end PowerMonitor.Core.GateLoss
