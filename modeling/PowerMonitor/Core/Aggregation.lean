import PowerMonitor.Core.IntervalAggregator
import PowerMonitor.Lib.Odometer

/-! # The aggregation of samples

The task gathers the samples of an interval and finishes a record when the interval is over; the sample that ends an
interval begins the next one. The normalizer adds to its offset what a falling counter loses. It sees the first and
the last counter value of an interval only, and adds the first one: the lifetime total is conserved exactly as long
as every interval, with the step into it, falls at most once, from its first value (`lifetime_conserved_iff`). -/

namespace PowerMonitor.Core.Aggregation

open PowerMonitor.Lib.Binary PowerMonitor.Lib.Odometer PowerMonitor.Storage.Reading
open PowerMonitor.Core.IntervalAggregator

def qualityCounterReset : UInt32 := 16
def qualityCounterRollover : UInt32 := 1024

/-! ### The normalizer -/

/-- The numbers of the normalizer that are not sums of measured quantities. -/
structure EnergyNormalizer where
  offsetWh : UInt64 := 0
  baselineAbsoluteWh : UInt64 := 0
  lastLifetimeWh : UInt64 := 0
  deriving DecidableEq

/-- The method is that of a falling counter; of one that does not fall, the measured energy says which it is. -/
structure EnergyResult where
  lifetimeWh : UInt64
  persistedOffsetWh : UInt64
  qualityFlags : UInt32
  method : Option Bytes
  offsetChanged : Bool
  deriving DecidableEq

def counterRange : UInt64 := 0x100000000

/-- What is added to the offset, with the method and the flag of the record. -/
def correction (rawStartWh rawEndWh : UInt64) : Option (UInt64 × Bytes × UInt32) :=
  if rawEndWh ≥ rawStartWh then none
  else if rawStartWh > 0xFFF00000 ∧ rawEndWh < 0x00100000 then
    some (counterRange, ascii "pzem_rollover", qualityCounterRollover)
  else some (rawStartWh, ascii "pzem_reset", qualityCounterReset)

/-- The energy of the interval, a real number, is given rounded by `intervalWh`. -/
def EnergyNormalizer.update (e : EnergyNormalizer) (rawStartWh rawEndWh : UInt64) (rawStartValid rawEndValid : Bool)
    (intervalWh : UInt64) : EnergyResult × EnergyNormalizer :=
  let corrected := if rawStartValid && rawEndValid then correction rawStartWh rawEndWh else none
  let offsetWh := e.offsetWh + (corrected.map (·.1)).getD 0
  let counted :=
    if rawEndValid then
      let absoluteWh := if rawEndWh.toNat > UInt64.size - 1 - offsetWh.toNat then 0xFFFFFFFFFFFFFFFF else offsetWh + rawEndWh
      if absoluteWh > e.baselineAbsoluteWh then absoluteWh - e.baselineAbsoluteWh else 0
    else if intervalWh.toNat > UInt64.size - 1 - e.lastLifetimeWh.toNat then 0xFFFFFFFFFFFFFFFF
    else e.lastLifetimeWh + intervalWh
  let lifetimeWh := max counted e.lastLifetimeWh
  ({ lifetimeWh := lifetimeWh
     persistedOffsetWh := offsetWh
     qualityFlags := (corrected.map (·.2.2)).getD 0
     method := corrected.map (·.2.1)
     offsetChanged := corrected.isSome },
    { e with offsetWh := offsetWh, lastLifetimeWh := lifetimeWh })

/-- Below the range of the rollover the first value is added whenever the last one is smaller. -/
theorem update_offsetWh {e : EnergyNormalizer} {rawStartWh rawEndWh intervalWh : UInt64}
    (hsmall : rawStartWh < 0xFFF00000) :
    (e.update rawStartWh rawEndWh true true intervalWh).2.offsetWh =
      if rawStartWh ≤ rawEndWh then e.offsetWh else e.offsetWh + rawStartWh := by
  have hnot : ¬ (rawStartWh > 0xFFF00000 ∧ rawEndWh < 0x00100000) := by
    rintro ⟨hlarge, -⟩
    exact absurd hlarge (UInt64.not_lt.mpr (UInt64.le_of_lt hsmall))
  show e.offsetWh + ((correction rawStartWh rawEndWh).map (·.1)).getD 0 = _
  unfold correction
  by_cases hle : rawStartWh ≤ rawEndWh
  · rw [if_pos hle, if_pos hle]
    exact UInt64.add_zero _
  · rw [if_neg hle, if_neg hle, if_neg hnot]
    rfl

/-! ### The task -/

structure MeasurementRuntimeConfig where
  friendlyName : Bytes := []
  durableLogIntervalSeconds : UInt32 := 60
  deriving DecidableEq

structure DeviceIdentity where
  deviceId : Bytes := []
  localInstanceId : Bytes := []
  bootId : Bytes := []
  deriving DecidableEq

/-- What a record takes from outside of the task. The measured quantities of the record and its rounded energy stand
for the sums of real numbers. -/
structure Setting where
  config : MeasurementRuntimeConfig := {}
  identity : DeviceIdentity := {}
  firmwareVersion : Bytes := []
  dataGeneration : UInt64 := 0
  measured : IntervalRecord := {}
  intervalWh : UInt64 := 0
  deriving DecidableEq

/-- The variables of the task that an interval is gathered in. -/
structure Gathering where
  aggregator : Aggregator := {}
  energy : EnergyNormalizer := {}
  started : Bool := false
  intervalStartedMs : UInt64 := 0
  lastIntervalSample : Option MeasurementSnapshot := none
  deriving DecidableEq

/-- The aggregator begins at a sample. -/
def Gathering.restart (t : Gathering) (sample : MeasurementSnapshot) : Gathering :=
  { t with
    aggregator := Aggregator.reset sample.utcMs sample.monotonicMs
    intervalStartedMs := sample.monotonicMs
    started := true }

def Gathering.gather (t : Gathering) (sample : MeasurementSnapshot) : Gathering :=
  let begun := if t.started then t else t.restart sample
  { begun with aggregator := begun.aggregator.add sample, lastIntervalSample := some sample }

/-- The interval is over with this sample. -/
def Gathering.over (t : Gathering) (config : MeasurementRuntimeConfig) (sample : MeasurementSnapshot) : Bool :=
  sample.monotonicMs - t.intervalStartedMs ≥ config.durableLogIntervalSeconds.toUInt64 * 1000 && t.aggregator.hasSamples

def Gathering.close (t : Gathering) (setting : Setting) (last : MeasurementSnapshot) : IntervalRecord × Gathering :=
  let (result, energy) := t.energy.update t.aggregator.rawStartWh t.aggregator.rawEndWh t.aggregator.rawStartValid
    t.aggregator.rawEndValid setting.intervalWh
  let measured := { setting.measured with
    deviceLifetimeEnergyWh := result.lifetimeWh
    energyMethod := result.method.getD setting.measured.energyMethod
    qualityFlags := setting.measured.qualityFlags ||| result.qualityFlags
    dataGeneration := setting.dataGeneration }
  let deviceId := if setting.identity.deviceId = [] then setting.identity.localInstanceId else setting.identity.deviceId
  (t.aggregator.finish measured deviceId setting.config.friendlyName setting.identity.bootId setting.firmwareVersion
    last.utcMs last.monotonicMs, { t with energy := energy })

/-- A sample of the stream, with what is read when it is taken from the queue. -/
structure Step where
  sample : MeasurementSnapshot
  setting : Setting := {}
  deriving DecidableEq

/-- The sample ends the interval. -/
def Gathering.finishes (t : Gathering) (step : Step) : Bool := (t.gather step.sample).over step.setting.config step.sample

/-- One sample on the ordinary path: the gates are open and the generation is that of the sample. -/
def Gathering.ordinary (t : Gathering) (step : Step) : Gathering × Option IntervalRecord :=
  if t.finishes step then
    let (record, t) := (t.gather step.sample).close step.setting step.sample
    (t.restart step.sample, some record)
  else (t.gather step.sample, none)

def Gathering.run (t : Gathering) (steps : List Step) : Gathering :=
  steps.foldl (fun t step => (t.ordinary step).1) t

/-- The samples of the finished intervals; `opened` are those of the interval that is not over yet. -/
def Gathering.intervals (t : Gathering) (opened : List MeasurementSnapshot) :
    List Step → List (List MeasurementSnapshot)
  | [] => []
  | step :: steps =>
    if t.finishes step then (opened ++ [step.sample]) :: (t.ordinary step).1.intervals [] steps
    else (t.ordinary step).1.intervals (opened ++ [step.sample]) steps

/-- The task after a boot, with what is stored of the energy. -/
def Gathering.boot (offsetWh baselineAbsoluteWh : UInt64) : Gathering where
  energy := { offsetWh := offsetWh, baselineAbsoluteWh := baselineAbsoluteWh }

def samplesOf (steps : List Step) : List MeasurementSnapshot := steps.map (·.sample)

def counters (samples : List MeasurementSnapshot) : List ℕ := samples.map (·.rawEnergyWh.toNat)

/-- A stream of valid samples at increasing times, of a counter that is not about to roll over. -/
structure Steady (samples : List MeasurementSnapshot) : Prop where
  valid : ∀ s ∈ samples, s.valid = true
  small : ∀ s ∈ samples, s.rawEnergyWh < 0xFFF00000
  times : samples.Pairwise fun s s' => s.monotonicMs < s'.monotonicMs

theorem Steady.of_append {before after : List MeasurementSnapshot} (h : Steady (before ++ after)) : Steady after where
  valid s hs := h.valid s (List.mem_append_right _ hs)
  small s hs := h.small s (List.mem_append_right _ hs)
  times := (List.pairwise_append.mp h.times).2.1

/-! ### The open interval -/

/-- The aggregator has the samples from `first` to `last` of an interval that began with `begun`. -/
structure Holding (a : Aggregator) (begun first last : MeasurementSnapshot) : Prop where
  startUtcMs : a.startUtcMs = begun.utcMs
  startMonotonicMs : a.startMonotonicMs = begun.monotonicMs
  rawStartWh : a.rawStartWh = first.rawEnergyWh
  rawEndWh : a.rawEndWh = last.rawEnergyWh
  rawStartValid : a.rawStartValid = true
  rawEndValid : a.rawEndValid = true
  lastSampleSeen : a.lastSampleSeen = true
  lastSampleMonotonicMs : a.lastSampleMonotonicMs = last.monotonicMs

theorem holding_reset_add {begun sample : MeasurementSnapshot} (hvalid : sample.valid = true) :
    Holding ((Aggregator.reset begun.utcMs begun.monotonicMs).add sample) begun sample sample := by
  unfold Aggregator.add
  rw [if_neg (fun h => Bool.noConfusion h.1)]
  simp only [hvalid, Bool.not_true, Bool.false_eq_true, if_false]
  constructor <;> rfl

theorem Holding.add {a : Aggregator} {begun first last sample : MeasurementSnapshot} (h : Holding a begun first last)
    (hvalid : sample.valid = true) (htime : last.monotonicMs < sample.monotonicMs) :
    Holding (a.add sample) begun first sample := by
  have hnew : ¬ (a.lastSampleSeen = true ∧ sample.monotonicMs ≤ a.lastSampleMonotonicMs) := by
    rintro ⟨-, hle⟩
    rw [h.lastSampleMonotonicMs] at hle
    exact absurd htime (UInt64.not_lt.mpr hle)
  unfold Aggregator.add
  rw [if_neg hnew]
  simp only [hvalid, Bool.not_true, Bool.false_eq_true, if_false, h.rawStartValid, if_true]
  exact ⟨h.startUtcMs, h.startMonotonicMs, h.rawStartWh, rfl, rfl, rfl, rfl, rfl⟩

/-- The task has the samples `opened` of an interval that began with `begun`. -/
structure Following (t : Gathering) (begun : MeasurementSnapshot) (opened : List MeasurementSnapshot) : Prop where
  started : t.started = true
  empty : opened = [] → t.aggregator = Aggregator.reset begun.utcMs begun.monotonicMs
  holding : ∀ first rest, opened = first :: rest → Holding t.aggregator begun first (rest.getLastD first)

theorem following_restart (t : Gathering) (sample : MeasurementSnapshot) : Following (t.restart sample) sample [] where
  started := rfl
  empty _ := rfl
  holding _ _ h := by cases h

/-- A sample joins those of the open interval. -/
theorem Following.gather {t : Gathering} {begun sample : MeasurementSnapshot} {opened later : List MeasurementSnapshot}
    (h : Following t begun opened) (hsteady : Steady (opened ++ sample :: later)) :
    Following (t.gather sample) begun (opened ++ [sample]) := by
  have hvalid := hsteady.valid sample (List.mem_append_right _ List.mem_cons_self)
  have haggregator : (t.gather sample).aggregator = t.aggregator.add sample := by
    unfold Gathering.gather
    rw [if_pos h.started]
  refine ⟨?_, fun hnil => by simp at hnil, fun first rest hopened => ?_⟩
  · unfold Gathering.gather
    rw [if_pos h.started]
    exact h.started
  · rw [haggregator]
    cases opened with
    | nil =>
      obtain ⟨rfl, rfl⟩ := List.cons.inj hopened
      rw [h.empty rfl]
      exact holding_reset_add hvalid
    | cons x xs =>
      obtain ⟨rfl, rfl⟩ := List.cons.inj hopened
      have htime := (List.pairwise_append.mp hsteady.times).2.2 (xs.getLastD x) List.getLastD_mem_cons
        sample List.mem_cons_self
      have hadded := (h.holding x xs rfl).add hvalid htime
      have hlast : (xs ++ [sample]).getLastD x = sample := List.getLastD_concat
      show Holding (t.aggregator.add sample) begun x ((xs ++ [sample]).getLastD x)
      rw [hlast]
      exact hadded

/-! ### A finished interval -/

theorem ordinary_not_finished {t : Gathering} {step : Step} (h : t.finishes step = false) :
    t.ordinary step = (t.gather step.sample, none) := by
  unfold Gathering.ordinary
  rw [h]
  rfl

theorem ordinary_finished {t : Gathering} {step : Step} (h : t.finishes step = true) :
    t.ordinary step = ((((t.gather step.sample).close step.setting step.sample).2).restart step.sample,
      some ((t.gather step.sample).close step.setting step.sample).1) := by
  unfold Gathering.ordinary
  rw [if_pos h]

theorem gather_energy (t : Gathering) (sample : MeasurementSnapshot) : (t.gather sample).energy = t.energy := by
  unfold Gathering.gather
  split <;> rfl

theorem following_ordinary {t : Gathering} {begun : MeasurementSnapshot} {opened : List MeasurementSnapshot}
    {step : Step} {later : List MeasurementSnapshot} (hfollow : Following t begun opened)
    (hsteady : Steady (opened ++ step.sample :: later)) (h : t.finishes step = false) :
    Following (t.ordinary step).1 begun (opened ++ [step.sample]) := by
  rw [ordinary_not_finished h]
  exact hfollow.gather hsteady

theorem following_ordinary_finished {t : Gathering} {step : Step} (h : t.finishes step = true) :
    Following (t.ordinary step).1 step.sample [] := by
  rw [ordinary_finished h]
  exact following_restart _ _

/-- The samples of an interval that ends have a first one. -/
theorem exists_first (opened : List MeasurementSnapshot) (sample : MeasurementSnapshot) :
    ∃ first rest, opened ++ [sample] = first :: rest ∧ rest.getLastD first = sample := by
  cases opened with
  | nil => exact ⟨sample, [], rfl, rfl⟩
  | cons first rest => exact ⟨first, rest ++ [sample], rfl, List.getLastD_concat⟩

/-- **What a finished interval adds to the offset**: its first value, if it ends below it. -/
theorem offsetWh_of_finished {t : Gathering} {begun : MeasurementSnapshot} {opened : List MeasurementSnapshot}
    {step : Step} {later : List MeasurementSnapshot} (hfollow : Following t begun opened)
    (hsteady : Steady (opened ++ step.sample :: later)) (h : t.finishes step = true) {first : MeasurementSnapshot}
    {rest : List MeasurementSnapshot} (hfirst : opened ++ [step.sample] = first :: rest)
    (hlast : rest.getLastD first = step.sample) :
    (t.ordinary step).1.energy.offsetWh =
      if first.rawEnergyWh ≤ step.sample.rawEnergyWh then t.energy.offsetWh
      else t.energy.offsetWh + first.rawEnergyWh := by
  have hgathered := (hfollow.gather hsteady).holding first rest hfirst
  rw [hlast] at hgathered
  have hmem : first ∈ opened ++ step.sample :: later := by
    have hfirstMem : first ∈ opened ++ [step.sample] := hfirst ▸ List.mem_cons_self
    simp only [List.mem_append, List.mem_cons, List.not_mem_nil, or_false] at hfirstMem ⊢
    exact hfirstMem.imp_right Or.inl
  rw [ordinary_finished h]
  show (((t.gather step.sample).energy.update (t.gather step.sample).aggregator.rawStartWh
    (t.gather step.sample).aggregator.rawEndWh (t.gather step.sample).aggregator.rawStartValid
    (t.gather step.sample).aggregator.rawEndValid step.setting.intervalWh).2).offsetWh = _
  rw [hgathered.rawStartWh, hgathered.rawEndWh, hgathered.rawStartValid, hgathered.rawEndValid, gather_energy,
    update_offsetWh (hsteady.small first hmem)]

/-! ### The lifetime total -/

/-- Every interval, with the step into it, falls at most once, from its first value, and the offset stays in range. -/
def Covered (offset previous : ℕ) : List (List ℕ) → Prop
  | [] => True
  | values :: later =>
    Kept previous values ∧ offset + dropped (previous :: values) < UInt64.size ∧
      Covered (offset + dropped (previous :: values)) (values.getLastD previous) later

/-- The offset gains what was dropped exactly for the intervals that are kept. -/
theorem offset_right_iff {offset first last : UInt64} {previous : ℕ} {rest : List ℕ}
    (hlast : rest.getLastD first.toNat = last.toNat) :
    (if first ≤ last then offset else offset + first).toNat =
        offset.toNat + dropped (previous :: first.toNat :: rest) ↔
      Kept previous (first.toNat :: rest) ∧
        offset.toNat + dropped (previous :: first.toNat :: rest) < UInt64.size := by
  have hoffset := offset.toNat_lt
  have hbound := first.toNat_lt
  rw [kept_iff, hlast]
  generalize dropped (previous :: first.toNat :: rest) = d
  have hsize : UInt64.size = 2 ^ 64 := rfl
  by_cases hle : first ≤ last
  · rw [if_pos hle, if_pos (UInt64.le_iff_toNat_le.mp hle)]
    omega
  · rw [if_neg hle, if_neg (fun hnat => hle (UInt64.le_iff_toNat_le.mpr hnat)), UInt64.toNat_add]
    omega

theorem run_cons (t : Gathering) (step : Step) (steps : List Step) :
    t.run (step :: steps) = (t.ordinary step).1.run steps := rfl

theorem forall_split_cons {α : Type*} {x : α} {xs : List α} {P : List α → α → Prop} :
    (∀ before y after, x :: xs = before ++ y :: after → P before y) ↔
      P [] x ∧ ∀ before y after, xs = before ++ y :: after → P (x :: before) y := by
  constructor
  · intro h
    exact ⟨h [] x xs rfl, fun before y after hxs => h (x :: before) y after (by rw [hxs, List.cons_append])⟩
  · rintro ⟨hhead, htail⟩ before y after hxs
    cases before with
    | nil =>
      obtain ⟨rfl, -⟩ := List.cons.inj hxs
      exact hhead
    | cons b before =>
      obtain ⟨rfl, hrest⟩ := List.cons.inj hxs
      exact htail before y after hrest

/-- The falls up to a sample and the falls after it. -/
theorem dropped_split (previous : ℕ) (opened : List MeasurementSnapshot) (sample : MeasurementSnapshot)
    (later : List MeasurementSnapshot) :
    dropped (previous :: counters (opened ++ sample :: later)) =
      dropped (previous :: counters (opened ++ [sample])) + dropped (sample.rawEnergyWh.toNat :: counters later) := by
  have hsplit := dropped_append_cons (previous :: counters opened) sample.rawEnergyWh.toNat (counters later)
  simpa only [counters, List.map_append, List.map_cons, List.map_nil, List.cons_append] using hsplit

/-- The law over a part of the stream: `previous` is the last value of the interval before, and the offset is right
there. By induction on the samples; an interval that is over hands its last value on. -/
theorem conserved_iff_of_following {steps : List Step} : ∀ {t : Gathering} {begun : MeasurementSnapshot}
    {opened : List MeasurementSnapshot} (previous : ℕ), Following t begun opened →
    Steady (opened ++ samplesOf steps) →
    ((∀ before step after, steps = before ++ step :: after → (t.run before).finishes step = true →
        (t.run (before ++ [step])).energy.offsetWh.toNat =
          t.energy.offsetWh.toNat + dropped (previous :: counters (opened ++ samplesOf (before ++ [step])))) ↔
      Covered t.energy.offsetWh.toNat previous ((t.intervals opened steps).map counters)) := by
  induction steps with
  | nil =>
    intro t begun opened previous hfollow hsteady
    exact ⟨fun _ => trivial, fun _ before step after h => by simp at h⟩
  | cons step steps ih =>
    intro t begun opened previous hfollow hsteady
    rw [forall_split_cons]
    by_cases hfin : t.finishes step = true
    · obtain ⟨first, rest, hfirst, hlast⟩ := exists_first opened step.sample
      have hoffset := offsetWh_of_finished hfollow hsteady hfin hfirst hlast
      have hcounters : counters (opened ++ [step.sample]) = first.rawEnergyWh.toNat :: counters rest := by
        rw [hfirst]
        rfl
      have hlastCounter : (counters rest).getLastD first.rawEnergyWh.toNat = step.sample.rawEnergyWh.toNat := by
        rw [← hlast, counters, List.getLastD_map]
      have hright := @offset_right_iff t.energy.offsetWh _ _ previous _ hlastCounter
      rw [← hoffset, ← hcounters] at hright
      have hrest := ih step.sample.rawEnergyWh.toNat (following_ordinary_finished hfin)
        (List.append_cons opened step.sample _ ▸ hsteady).of_append
      have hlater : ∀ before y, samplesOf (step :: before ++ [y]) = step.sample :: samplesOf (before ++ [y]) :=
        fun before y => rfl
      have hintervals : (t.intervals opened (step :: steps)).map counters =
          counters (opened ++ [step.sample]) :: ((t.ordinary step).1.intervals [] steps).map counters := by
        rw [Gathering.intervals, if_pos hfin, List.map_cons]
      rw [hintervals, Covered, hcounters, List.getLastD_cons, hlastCounter, ← hcounters, ← and_assoc, ← hright]
      constructor
      · rintro ⟨hhead, htail⟩
        have hnow : (t.ordinary step).1.energy.offsetWh.toNat =
          t.energy.offsetWh.toNat + dropped (previous :: counters (opened ++ [step.sample])) := hhead hfin
        refine ⟨hnow, ?_⟩
        rw [← hnow, ← hrest]
        intro before y after hsteps hy
        have hthen := htail before y after hsteps hy
        rw [hlater, dropped_split, ← Nat.add_assoc, ← hnow] at hthen
        exact hthen
      · rintro ⟨hnow, hcovered⟩
        refine ⟨fun _ => hnow, fun before y after hsteps hy => ?_⟩
        rw [← hnow, ← hrest] at hcovered
        rw [hlater, dropped_split, ← Nat.add_assoc, ← hnow]
        exact hcovered before y after hsteps hy
    · rw [Bool.not_eq_true] at hfin
      have hsteady' : Steady ((opened ++ [step.sample]) ++ samplesOf steps) := by
        rw [List.append_assoc]
        exact hsteady
      have hrest := ih previous (following_ordinary hfollow hsteady hfin) hsteady'
      have henergy : (t.ordinary step).1.energy = t.energy := by
        rw [ordinary_not_finished hfin]
        exact gather_energy t step.sample
      rw [henergy] at hrest
      have hintervals : t.intervals opened (step :: steps) =
          (t.ordinary step).1.intervals (opened ++ [step.sample]) steps := by
        rw [Gathering.intervals, hfin]
        rfl
      rw [hintervals, ← hrest]
      constructor
      · rintro ⟨-, htail⟩ before y after hsteps hy
        have hthen := htail before y after hsteps hy
        rw [List.append_assoc]
        exact hthen
      · intro hall
        refine ⟨fun hnow => absurd (hfin.symm.trans hnow) Bool.false_ne_true, fun before y after hsteps hy => ?_⟩
        have hthen := hall before y after hsteps hy
        rw [List.append_assoc] at hthen
        exact hthen

/-- A task that has not begun takes its first sample as one that began with it. -/
theorem gather_restart {t : Gathering} (sample : MeasurementSnapshot) (h : t.started = false) :
    t.gather sample = (t.restart sample).gather sample := by
  unfold Gathering.gather
  rw [h]
  rfl

theorem ordinary_restart {t : Gathering} (step : Step) (h : t.started = false) :
    t.ordinary step = (t.restart step.sample).ordinary step := by
  unfold Gathering.ordinary Gathering.finishes
  rw [gather_restart step.sample h]

theorem run_restart {t : Gathering} (step : Step) (steps : List Step) (h : t.started = false) :
    t.run (step :: steps) = (t.restart step.sample).run (step :: steps) := by
  rw [run_cons, run_cons, ordinary_restart step h]

theorem intervals_restart {t : Gathering} (step : Step) (steps : List Step) (h : t.started = false) :
    t.intervals [] (step :: steps) = (t.restart step.sample).intervals [] (step :: steps) := by
  unfold Gathering.intervals Gathering.finishes
  rw [gather_restart step.sample h, ordinary_restart step h]

/-- The counter values up to a sample: from the first of the stream to its own. -/
theorem counters_upto {first step : Step} {steps before after : List Step}
    (h : first :: steps = before ++ step :: after) :
    ∃ cs, counters (samplesOf (before ++ [step])) = first.sample.rawEnergyWh.toNat :: cs ∧
      cs.getLastD first.sample.rawEnergyWh.toNat = step.sample.rawEnergyWh.toNat := by
  cases before with
  | nil =>
    obtain ⟨rfl, -⟩ := List.cons.inj h
    exact ⟨[], rfl, rfl⟩
  | cons b before =>
    obtain ⟨rfl, -⟩ := List.cons.inj h
    refine ⟨counters (samplesOf (before ++ [step])), rfl, ?_⟩
    rw [samplesOf, counters, List.map_append, List.map_append]
    exact List.getLastD_concat

/-- **The lifetime total is conserved** after every finished interval exactly for the streams and the cuts whose
intervals are covered. -/
theorem lifetime_conserved_iff {offsetWh baselineAbsoluteWh : UInt64} {steps : List Step}
    (hsteady : Steady (samplesOf steps)) :
    (∀ before step after, steps = before ++ step :: after →
      ((Gathering.boot offsetWh baselineAbsoluteWh).run before).finishes step = true →
      ((Gathering.boot offsetWh baselineAbsoluteWh).run (before ++ [step])).energy.offsetWh.toNat +
          step.sample.rawEnergyWh.toNat =
        offsetWh.toNat + counted (counters (samplesOf (before ++ [step])))) ↔
    Covered offsetWh.toNat ((counters (samplesOf steps)).headD 0)
      (((Gathering.boot offsetWh baselineAbsoluteWh).intervals [] steps).map counters) := by
  generalize ht : Gathering.boot offsetWh baselineAbsoluteWh = t
  have hstarted : t.started = false := ht ▸ rfl
  have hoffset : t.energy.offsetWh = offsetWh := ht ▸ rfl
  cases steps with
  | nil => exact ⟨fun _ => trivial, fun _ before step after h => by simp at h⟩
  | cons first steps =>
    have hall : Steady ([] ++ samplesOf (first :: steps)) := hsteady
    have hlaw := conserved_iff_of_following first.sample.rawEnergyWh.toNat (following_restart t first.sample) hall
    have henergy : (t.restart first.sample).energy.offsetWh = offsetWh := hoffset
    rw [henergy, ← intervals_restart first steps hstarted] at hlaw
    show _ ↔ Covered offsetWh.toNat first.sample.rawEnergyWh.toNat _
    rw [← hlaw]
    refine forall_congr' fun before => forall_congr' fun step => forall_congr' fun after =>
      forall_congr' fun hsteps => ?_
    obtain ⟨cs, hcounters, hlast⟩ := counters_upto hsteps
    have hfinishes : (t.run before).finishes step = ((t.restart first.sample).run before).finishes step := by
      cases before with
      | nil =>
        obtain ⟨rfl, -⟩ := List.cons.inj hsteps
        show (t.gather _).over _ _ = ((t.restart _).gather _).over _ _
        rw [gather_restart _ hstarted]
      | cons b before =>
        obtain ⟨rfl, -⟩ := List.cons.inj hsteps
        rw [run_restart _ before hstarted]
    have hrun : t.run (before ++ [step]) = (t.restart first.sample).run (before ++ [step]) := by
      cases before with
      | nil =>
        obtain ⟨rfl, -⟩ := List.cons.inj hsteps
        exact run_restart _ [] hstarted
      | cons b before =>
        obtain ⟨rfl, -⟩ := List.cons.inj hsteps
        exact run_restart _ (before ++ [step]) hstarted
    rw [hfinishes, hrun, List.nil_append, hcounters, dropped_head, counted_cons, hlast]
    refine forall_congr' fun _ => ?_
    omega

/-- A sample of a counter, at a time in seconds. -/
def sampleAt (seconds rawEnergyWh : UInt64) : Step where
  sample :=
    { utcMs := 1787000000000 + seconds * 1000
      monotonicMs := seconds * 1000
      rawEnergyWh := rawEnergyWh
      valid := true
      timeTrusted := true }

/-- The counter rises within the first interval and falls back in the second one, from the value it has there. -/
theorem lifetime_conserved_steps :
    ((Gathering.boot 1000 0).run [sampleAt 1 500, sampleAt 61 525, sampleAt 62 525, sampleAt 121 3]).energy.offsetWh.toNat
        + (3 : UInt64).toNat =
      (1000 : UInt64).toNat +
        counted (counters (samplesOf [sampleAt 1 500, sampleAt 61 525, sampleAt 62 525, sampleAt 121 3])) := by
  have hsteady : Steady (samplesOf [sampleAt 1 500, sampleAt 61 525, sampleAt 62 525, sampleAt 121 3]) :=
    ⟨by decide, by decide, by decide⟩
  have hcovered : Covered (1000 : UInt64).toNat 500 [[500, 525], [525, 3]] :=
    ⟨Or.inl (by decide), by decide, Or.inr ⟨by decide, 0, 3, [], rfl, by decide, by decide, by decide⟩, by decide, trivial⟩
  exact (@lifetime_conserved_iff 1000 0 _ hsteady).mpr hcovered
    [sampleAt 1 500, sampleAt 61 525, sampleAt 62 525] (sampleAt 121 3) [] rfl (by decide)

/-- The counter rises from 100 to 200 and falls to 3 in one interval: the offset gains 100. -/
theorem lifetime_lost : ((Gathering.boot 0 0).run [sampleAt 1 100, sampleAt 31 200]).finishes (sampleAt 61 3) = true ∧
    ((Gathering.boot 0 0).run [sampleAt 1 100, sampleAt 31 200, sampleAt 61 3]).energy.offsetWh.toNat + 3 = 103 ∧
    0 + counted (counters (samplesOf [sampleAt 1 100, sampleAt 31 200, sampleAt 61 3])) = 203 := by
  decide

end PowerMonitor.Core.Aggregation
