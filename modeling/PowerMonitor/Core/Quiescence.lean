import PowerMonitor.Core.AggregationTask
import PowerMonitor.Lib.Rely

/-! # The task after it is quiesced

A pass that finds the measurement frozen and nothing left reports so. From then on, as long as the freeze lasts and no
sample comes, the task stages nothing: whatever it does next, between any two of its calls. -/

namespace PowerMonitor.Core.Quiescence

open PowerMonitor.Lib.Program PowerMonitor.Storage.Reading
open PowerMonitor.Core.IntervalAggregator PowerMonitor.Core.Aggregation PowerMonitor.Core.AggregationTask

/-- Nothing is held, and nothing is gathered that could be finished. -/
structure Emptied (t : Task) : Prop where
  held : t.resetBoundaryRecords = []
  gathered : ∀ last, t.gathering.lastIntervalSample = some last →
    (t.gathering.started && t.gathering.aggregator.hasSamples) = false

/-- The call stages nothing. -/
def Silent (o : Op) : Prop := ∀ records offsetWh, o ≠ .saveStaged records offsetWh

/-- The answers while the measurement is frozen and no sample comes. -/
def Frozen : (o : Op) → Ans o → Prop
  | .dataResetFrozen _, frozen => frozen = true
  | .receive, arrival => arrival = none
  | .receiveAll, arrivals => arrivals = []
  | _, _ => True

/-- The rest of a pass stages nothing while the freeze lasts, and leaves nothing. -/
abbrev Quiet (p : TaskProg Task) : Prop := p.Under Silent Frozen Emptied

/-- Where the rest of a pass reports that nothing is left, it is quiet after that. -/
abbrev Honest (p : TaskProg Task) : Prop := p.Each fun o k => o = .markDataResetProducerQuiesced → ∀ r, Quiet (k r)

variable {t : Task}

/-! ### Quiet passes -/

theorem quiet_drain (h : Emptied t) : Quiet (drain t) := by
  unfold drain
  rw [if_pos h.held]
  refine Prog.under_op (fun _ _ => Op.noConfusion) fun _ _ => ⟨rfl, ?_⟩
  exact h.gathered

theorem quiet_closeOrDrain (h : Emptied t) : Quiet (closeOrDrain t) := by
  unfold closeOrDrain
  split
  · next last hlast =>
    rw [h.gathered last hlast]
    exact quiet_drain h
  · exact quiet_drain h

/-- **A pass of a task that holds nothing** stages nothing while the measurement is frozen. -/
theorem quiet_iterate (h : Emptied t) : Quiet (iterate t) := by
  unfold iterate
  refine Prog.under_op (fun _ _ => Op.noConfusion) fun frozen hfrozen => ?_
  have hfrozen : frozen = true := hfrozen
  rw [if_pos hfrozen]
  have hobserved : Quiet (observeGate t) :=
    Prog.under_ite (fun _ => h) fun _ => Prog.under_op (fun _ _ => Op.noConfusion) fun _ _ => ⟨h.held, h.gathered⟩
  refine hobserved.bind fun t' h' => Prog.under_op (fun _ _ => Op.noConfusion) fun busy _ => ?_
  refine Prog.under_ite (fun _ => h') fun _ => Prog.under_op (fun _ _ => Op.noConfusion) fun arrivals harrivals => ?_
  have harrivals : arrivals = [] := harrivals
  subst harrivals
  exact quiet_closeOrDrain ⟨h'.held, h'.gathered⟩

theorem emptied_boot (offsetWh baselineAbsoluteWh : UInt64) : Emptied (Task.boot offsetWh baselineAbsoluteWh) :=
  ⟨rfl, fun _ h => nomatch h⟩

/-! ### Honest passes -/

/-- The call does not report that nothing is left. -/
abbrev Modest (o : Op) : Prop := o ≠ .markDataResetProducerQuiesced

theorem honest_of_modest (o : Op) (k : Ans o → TaskProg Task) (h : Modest o) :
    o = .markDataResetProducerQuiesced → ∀ r, Quiet (k r) := fun ho => absurd ho h

theorem modest_enqueueRecord (place : Place) (record : IntervalRecord) : (enqueueRecord place record).All Modest := by
  unfold enqueueRecord
  refine Prog.all_op_bind Op.noConfusion fun _ => Prog.all_ite trivial ?_
  refine Prog.all_op_bind Op.noConfusion fun _ => Prog.all_ite trivial ?_
  refine Prog.all_op_bind Op.noConfusion fun _ => Prog.all_ite ?_ ?_
  · exact Prog.all_op_bind Op.noConfusion fun _ => trivial
  refine Prog.all_op_bind Op.noConfusion fun _ => Prog.all_ite ?_ trivial
  exact Prog.all_op_bind Op.noConfusion fun _ => trivial

theorem modest_stageRecordsForDataReset (records : List IntervalRecord) (offsetWh : UInt64) :
    (stageRecordsForDataReset records offsetWh).All Modest := by
  unfold stageRecordsForDataReset
  have hlook : ∀ {f : Bool → TaskProg Bool}, (∀ enabled, (f enabled).All Modest) → Prog.All Modest (do
      let active ← producerBarrierActive
      let enabled ← if active then recordWritesEnabled .staging else pure true
      f enabled) := by
    intro f hf
    refine Prog.all_op_bind Op.noConfusion fun _ => Prog.all_ite ?_ (hf true)
    exact Prog.all_op_bind Op.noConfusion hf
  refine Prog.all_ite trivial (hlook fun _ => Prog.all_ite trivial (hlook fun _ => Prog.all_ite trivial ?_))
  exact (Prog.all_op _).mpr Op.noConfusion

theorem modest_flush (records : List IntervalRecord) : (flush records).All Modest := by
  induction records with
  | nil => trivial
  | cons record records ih => exact (modest_enqueueRecord .flushing record).bind fun _ => Prog.all_ite ih trivial

theorem modest_goOn (t : Task) : (goOn t).All Modest := by
  unfold goOn
  refine Prog.all_ite trivial (Prog.all_op_bind Op.noConfusion fun _ => Prog.all_ite ?_ trivial)
  exact Prog.all_op_bind Op.noConfusion fun _ => trivial

theorem modest_resume (t : Task) : (resume t).All Modest := by
  have hflush : (flushBoundary t).All Modest := by
    have hgive : ∀ queued : Bool, Prog.All Modest (if !queued then pure t else do
        let left ← flush t.resetBoundaryRecords
        return { t with resetBoundaryRecords := left } : TaskProg Task) := fun queued =>
      Prog.all_ite trivial ((modest_flush _).bind fun _ => trivial)
    refine Prog.all_op_bind Op.noConfusion fun _ => Prog.all_ite ?_ (hgive false)
    exact Prog.all_op_bind Op.noConfusion hgive
  exact Prog.all_ite (modest_goOn t) (hflush.bind modest_goOn)

theorem modest_ordinaryPass (t : Task) : (ordinaryPass t).All Modest := by
  have hsettle : ∀ t record arrival, (settleRecord t record arrival).All Modest := by
    intro t record arrival
    have hoffer : Prog.All Modest (do
        let _ ← enqueueRecord .offering record
        return t : TaskProg Task) := (modest_enqueueRecord _ _).bind fun _ => trivial
    refine Prog.all_op_bind Op.noConfusion fun _ => Prog.all_ite trivial ?_
    exact Prog.all_op_bind Op.noConfusion fun _ => Prog.all_ite trivial hoffer
  unfold ordinaryPass
  refine Prog.all_op_bind Op.noConfusion fun received => ?_
  split
  · trivial
  refine Prog.all_op_bind Op.noConfusion fun _ => Prog.all_op_bind Op.noConfusion fun _ => Prog.all_ite trivial ?_
  refine Prog.all_op_bind Op.noConfusion fun _ => Prog.all_ite ?_ trivial
  refine Prog.all_op_bind Op.noConfusion fun _ => Prog.all_op_bind Op.noConfusion fun _ => (hsettle _ _ _).bind fun _ => ?_
  refine Prog.all_op_bind Op.noConfusion fun _ => Prog.all_ite trivial ?_
  exact Prog.all_op_bind Op.noConfusion fun _ => trivial

/-- What was drained is neither held nor gathered any more. -/
theorem honest_drain (hgathered : ∀ last, t.gathering.lastIntervalSample = some last →
    (t.gathering.started && t.gathering.aggregator.hasSamples) = false) : Honest (drain t) := by
  have hmark : ∀ staged : Bool, Honest (if !staged then pure t else do
      markDataResetProducerQuiesced
      return { t with resetBoundaryRecords := [], resetDrainComplete := true }) := fun staged =>
    Prog.each_ite trivial (Prog.each_op (fun _ _ => ⟨rfl, hgathered⟩) fun _ => trivial)
  unfold drain
  refine Prog.each_ite (hmark true) ?_
  exact (modest_stageRecordsForDataReset _ _).each_bind honest_of_modest hmark

theorem honest_closeOrDrain (t : Task) : Honest (closeOrDrain t) := by
  unfold closeOrDrain
  split
  · next last hlast =>
    split
    · refine Prog.each_ite trivial ?_
      exact Prog.each_op (honest_of_modest _ _ Op.noConfusion) fun _ =>
        Prog.each_op (honest_of_modest _ _ Op.noConfusion) fun _ => trivial
    · next hnone => exact honest_drain fun _ _ => Bool.eq_false_iff.mpr hnone
  · next hnone => exact honest_drain fun last hlast => absurd (hnone.symm.trans hlast) nofun

/-- **Every pass is honest**: it reports that nothing is left only when that is so. -/
theorem honest_iterate (t : Task) : Honest (iterate t) := by
  unfold iterate
  refine Prog.each_op (honest_of_modest _ _ Op.noConfusion) fun _ => Prog.each_ite ?_ ?_
  · have hobserved : (observeGate t).All Modest :=
      Prog.all_ite trivial (Prog.all_op_bind Op.noConfusion fun _ => trivial)
    refine hobserved.each_bind honest_of_modest fun t' => ?_
    refine Prog.each_op (honest_of_modest _ _ Op.noConfusion) fun _ => Prog.each_ite trivial ?_
    exact Prog.each_op (honest_of_modest _ _ Op.noConfusion) fun _ => honest_closeOrDrain _
  · have hgoes : ∀ r : Bool × Task, Honest (if !r.1 then pure r.2 else ordinaryPass r.2) := fun r =>
      Prog.each_ite trivial ((modest_ordinaryPass _).each honest_of_modest)
    exact Prog.each_ite ((modest_resume t).each_bind honest_of_modest hgoes) (hgoes (true, t))

end PowerMonitor.Core.Quiescence
