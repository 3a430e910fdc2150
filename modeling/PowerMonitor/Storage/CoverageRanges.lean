import Mathlib.Order.Bounds.Defs
import Mathlib.Order.Interval.Finset.Nat
import Mathlib.Data.List.Dedup
import PowerMonitor.Storage.SyncCoverage

/-! # The ranges of a coverage plan

The walk of `deriveSyncCoverage` as the device makes it, over numbers of 64 bits: after each sequence it
goes on with the next, and a last test keeps it from passing the largest number. It ends for every input, and
is the walk over the natural numbers (`coverageLoop64_eq`).

* `Ordered`: the ranges of the walk leave a gap between each two, and the count is that of the sequences that
  are not sent.
* `deriveSyncCoverage64_spec`: the plan ends as far out as a plan may (`Reaches`), and its ranges are exactly
  the sequences that are not sent. -/

namespace PowerMonitor.Storage.CoverageRanges

open PowerMonitor.Storage.SyncCoverage

/-! ### The walk of the device -/

/-- `sort_unique`. -/
def sortUnique (values : List UInt64) : List UInt64 := (values.mergeSort fun a b => decide (a ≤ b)).dedup

/-- Where a page wants to end; both lists are sorted. -/
def desiredEnd64 (maximumScanned : UInt64) (selected : List UInt64) : UInt64 :=
  match selected.getLast? with
  | none => maximumScanned
  | some back => min maximumScanned back

/-- The loop from `sequence` on, `fuel` times at most; nothing if it has not ended then. -/
def coverageLoop64 (selected observed : List UInt64) (maximumUnavailable : ℕ) (desiredEnd : UInt64) :
    ℕ → UInt64 → Walk → Option Walk
  | 0, _, _ => none
  | fuel + 1, sequence, w =>
    if desiredEnd < sequence then some w
    else if sequence ∈ observed ∧ sequence ∉ selected then some w
    else if sequence ∉ selected ∧ w.unavailableCount ≥ maximumUnavailable then some w
    else
      let w := if sequence ∉ selected then w.skip sequence.toNat else w.send sequence.toNat
      if sequence.toNat = 2 ^ 64 - 1 then some w
      else coverageLoop64 selected observed maximumUnavailable desiredEnd fuel (sequence + 1) w

def deriveSyncCoverage64 (fuel : ℕ) (afterSequence maximumScanned : UInt64) (selected observed : List UInt64)
    (maximumUnavailable : ℕ) : Option SyncCoveragePlan :=
  if maximumScanned ≤ afterSequence ∨ maximumUnavailable = 0 ∨ afterSequence.toNat = 2 ^ 64 - 1 then some {}
  else do
    let w ← coverageLoop64 (sortUnique selected) (sortUnique observed) maximumUnavailable
      (desiredEnd64 maximumScanned (sortUnique selected)) fuel (afterSequence + 1) {}
    return { w.plan with
      unavailableSequenceRanges := w.plan.unavailableSequenceRanges ++ w.current.toList }

variable {selected observed : List UInt64} {maximumUnavailable : ℕ}

@[simp] theorem mem_sortUnique {values : List UInt64} {v : UInt64} : v ∈ sortUnique values ↔ v ∈ values := by
  simp [sortUnique]

theorem mem_map_toNat {values : List UInt64} {v : UInt64} : v.toNat ∈ values.map UInt64.toNat ↔ v ∈ values := by
  simp [UInt64.toNat_inj]

theorem pairwise_sortUnique (values : List UInt64) : (sortUnique values).Pairwise (· ≤ ·) := by
  have hsorted : (values.mergeSort fun a b => decide (a ≤ b)).Pairwise (· ≤ ·) := by
    simpa using @List.pairwise_mergeSort _ (fun a b : UInt64 => decide (a ≤ b))
      (by simp only [decide_eq_true_eq]; exact fun a b c => UInt64.le_trans)
      (by simp only [Bool.or_eq_true, decide_eq_true_eq]; exact fun a b => UInt64.le_total a b) values
  exact hsorted.sublist (List.dedup_sublist _)

/-- The last of a sorted list is its largest. -/
theorem le_getLast {l : List UInt64} {back : UInt64} (h : l.Pairwise (· ≤ ·)) (hback : l.getLast? = some back) :
    ∀ v ∈ l, v ≤ back := by
  obtain ⟨l', rfl⟩ := List.getLast?_eq_some_iff.mp hback
  rw [List.pairwise_append] at h
  intro v hv
  rcases List.mem_append.mp hv with hv | hv
  · exact h.2.2 v hv back (List.mem_singleton_self back)
  · rw [List.mem_singleton.mp hv]
    exact UInt64.le_refl back

theorem toNat_desiredEnd64 (maximumScanned : UInt64) (selected : List UInt64) :
    (desiredEnd64 maximumScanned (sortUnique selected)).toNat =
      desiredEnd maximumScanned.toNat (selected.map UInt64.toNat) := by
  unfold desiredEnd64 desiredEnd
  cases hback : (sortUnique selected).getLast? with
  | none =>
    have hempty : selected = [] := by
      rw [List.getLast?_eq_none_iff] at hback
      exact List.eq_nil_iff_forall_not_mem.mpr fun v hv => by
        have := mem_sortUnique.mpr hv
        rw [hback] at this
        cases this
    simp [hempty]
  | some back =>
    have hle := le_getLast (pairwise_sortUnique selected) hback
    have hmax : (selected.map UInt64.toNat).max? = some back.toNat := by
      rw [List.max?_eq_some_iff]
      refine ⟨mem_map_toNat.mpr (mem_sortUnique.mp (List.mem_of_getLast? hback)), fun s hs => ?_⟩
      obtain ⟨v, hv, rfl⟩ := List.mem_map.mp hs
      exact UInt64.le_iff_toNat_le.mp (hle v (mem_sortUnique.mpr hv))
    rw [hmax]
    simp only
    rw [UInt64.min_def]
    split_ifs with h
    · rw [UInt64.le_iff_toNat_le] at h; omega
    · rw [UInt64.le_iff_toNat_le] at h; omega

/-- **The loop of the device ends**, and is the walk over the natural numbers. -/
theorem coverageLoop64_eq (selected observed : List UInt64) (maximumUnavailable : ℕ) (desiredEnd : UInt64) :
    ∀ (fuel : ℕ) (sequence : UInt64) (w : Walk), desiredEnd.toNat + 1 - sequence.toNat < fuel →
      coverageLoop64 selected observed maximumUnavailable desiredEnd fuel sequence w =
        some (coverageLoop (selected.map UInt64.toNat) (observed.map UInt64.toNat) maximumUnavailable
          (desiredEnd.toNat + 1 - sequence.toNat) sequence.toNat w) := by
  intro fuel
  induction fuel with
  | zero => intro sequence w h; omega
  | succ fuel ih =>
    intro sequence w hfuel
    unfold coverageLoop64
    by_cases hend : desiredEnd < sequence
    · have hlt := UInt64.lt_iff_toNat_lt.mp hend
      rw [if_pos hend, show desiredEnd.toNat + 1 - sequence.toNat = 0 by omega]
      rfl
    · have hin : sequence.toNat ≤ desiredEnd.toNat := by
        rw [UInt64.lt_iff_toNat_lt] at hend
        omega
      obtain ⟨steps, hsteps⟩ : ∃ steps, desiredEnd.toNat + 1 - sequence.toNat = steps + 1 :=
        ⟨desiredEnd.toNat - sequence.toNat, by omega⟩
      rw [if_neg hend, hsteps, coverageLoop]
      simp only [mem_map_toNat]
      -- the rest of the walk, or its end behind the largest number
      have hnext (w : Walk) : (if sequence.toNat = 2 ^ 64 - 1 then some w
          else coverageLoop64 selected observed maximumUnavailable desiredEnd fuel (sequence + 1) w) =
          some (coverageLoop (selected.map UInt64.toNat) (observed.map UInt64.toNat) maximumUnavailable steps
            (sequence.toNat + 1) w) := by
        by_cases hlast : sequence.toNat = 2 ^ 64 - 1
        · have hbound := desiredEnd.toNat_lt
          rw [if_pos hlast, show steps = 0 by omega]
          rfl
        · have hbound := sequence.toNat_lt
          have hadd : (sequence + 1).toNat = sequence.toNat + 1 := by
            rw [UInt64.toNat_add, UInt64.toNat_one]
            omega
          rw [if_neg hlast, ih (sequence + 1) w (by omega), hadd,
            show desiredEnd.toNat + 1 - (sequence.toNat + 1) = steps by omega]
      by_cases hselected : sequence ∈ selected
      · simp only [hselected, not_true_eq_false, and_false, false_and, if_false]
        exact hnext _
      · by_cases hobserved : sequence ∈ observed
        · simp only [hobserved, hselected, not_false_eq_true, and_self, if_true]
        · by_cases hfull : w.unavailableCount ≥ maximumUnavailable
          · simp only [hobserved, hselected, hfull, not_false_eq_true, and_self, false_and, if_true, if_false]
          · simp only [hobserved, hselected, hfull, not_false_eq_true, and_false, false_and, if_true, if_false]
            exact hnext _

/-! ### The ranges of the walk -/

/-- How many sequences after `after` and before `n` are not sent. -/
def unsent (selected : List ℕ) (after n : ℕ) : Finset ℕ := (Finset.Ioo after n).filter (· ∉ selected)

theorem unsent_succ_of_mem {selected : List ℕ} {after n : ℕ} (h : n ∈ selected) :
    unsent selected after (n + 1) = unsent selected after n := by
  ext s
  simp only [unsent, Finset.mem_filter, Finset.mem_Ioo]
  constructor
  · rintro ⟨⟨h1, h2⟩, h3⟩
    have hne : s ≠ n := fun heq => h3 (heq ▸ h)
    exact ⟨⟨h1, by omega⟩, h3⟩
  · rintro ⟨⟨h1, h2⟩, h3⟩
    exact ⟨⟨h1, by omega⟩, h3⟩

theorem card_unsent_succ {selected : List ℕ} {after n : ℕ} (hn : after < n) (h : n ∉ selected) :
    (unsent selected after (n + 1)).card = (unsent selected after n).card + 1 := by
  have hinsert : unsent selected after (n + 1) = insert n (unsent selected after n) := by
    ext s
    simp only [unsent, Finset.mem_filter, Finset.mem_Ioo, Finset.mem_insert]
    constructor
    · rintro ⟨⟨h1, h2⟩, h3⟩
      by_cases hs : s = n
      · exact Or.inl hs
      · exact Or.inr ⟨⟨h1, by omega⟩, h3⟩
    · rintro (rfl | ⟨⟨h1, h2⟩, h3⟩)
      · exact ⟨⟨hn, by omega⟩, h⟩
      · exact ⟨⟨h1, by omega⟩, h3⟩
  rw [hinsert, Finset.card_insert_of_notMem (by simp [unsent])]

theorem unsent_subset (selected : List ℕ) (after : ℕ) {m n : ℕ} (h : m ≤ n) :
    unsent selected after m ⊆ unsent selected after n :=
  Finset.filter_subset_filter _ (Finset.Ioo_subset_Ioo_right h)

/-- **The ranges leave a gap between each two**, and the count is that of the sequences not sent. -/
structure Ordered (selected : List ℕ) (maximumUnavailable after n : ℕ) (w : Walk) : Prop where
  pairwise : w.ranges.Pairwise fun r r' => r.endSequence + 1 < r'.startSequence
  closed : ∀ r ∈ w.plan.unavailableSequenceRanges, r.endSequence + 1 < n
  count : w.unavailableCount = (unsent selected after n).card
  capped : w.unavailableCount ≤ maximumUnavailable

section

variable {selected observed : List ℕ} {after n : ℕ} {w : Walk}

theorem ordered_start : Ordered selected maximumUnavailable after (after + 1) {} where
  pairwise := by simp [Walk.ranges]
  closed r hr := by cases hr
  count := by
    have hempty : unsent selected after (after + 1) = ∅ := by
      ext s
      simp only [unsent, Finset.mem_filter, Finset.mem_Ioo, Finset.notMem_empty, iff_false]
      omega
    rw [hempty]
    rfl
  capped := Nat.zero_le _

theorem ordered_skip (hn : after < n) (hc : Covers selected observed after n w)
    (h : Ordered selected maximumUnavailable after n w) (hns : n ∉ selected)
    (hroom : w.unavailableCount < maximumUnavailable) :
    Ordered selected maximumUnavailable after (n + 1) (w.skip n) := by
  have hcount := h.count
  have hcard := card_unsent_succ hn hns
  have hpairwise := h.pairwise
  cases hcurrent : w.current with
  | none =>
    simp only [Walk.ranges, hcurrent, Option.toList_none, List.append_nil] at hpairwise
    refine ⟨?_, fun r hr => ?_, ?_, ?_⟩
    · simp only [Walk.ranges, Walk.skip, hcurrent, Option.toList_some]
      rw [List.pairwise_append]
      refine ⟨hpairwise, List.pairwise_singleton _ _, fun r hr r' hr' => ?_⟩
      rw [List.mem_singleton.mp hr']
      exact h.closed r hr
    · simp only [Walk.skip, hcurrent] at hr
      have := h.closed r hr
      omega
    · simp only [Walk.skip]; omega
    · simp only [Walk.skip]; omega
  | some c =>
    have hend := hc.open_end c hcurrent
    simp only [Walk.ranges, hcurrent, Option.toList_some, List.pairwise_append, List.mem_singleton,
      forall_eq] at hpairwise
    refine ⟨?_, fun r hr => ?_, ?_, ?_⟩
    · simp only [Walk.ranges, Walk.skip, hcurrent, if_pos hend.symm, Option.toList_some, List.pairwise_append,
        List.mem_singleton, forall_eq]
      exact ⟨hpairwise.1, List.pairwise_singleton _ _, hpairwise.2.2⟩
    · simp only [Walk.skip, hcurrent, if_pos hend.symm] at hr
      have := h.closed r hr
      omega
    · simp only [Walk.skip]; omega
    · simp only [Walk.skip]; omega

theorem ordered_send (hc : Covers selected observed after n w)
    (h : Ordered selected maximumUnavailable after n w) (hs : n ∈ selected) :
    Ordered selected maximumUnavailable after (n + 1) (w.send n) where
  pairwise := by
    have hr : (w.send n).ranges = w.ranges := by simp [Walk.ranges, Walk.send]
    rw [hr]
    exact h.pairwise
  closed r hr := by
    simp only [Walk.send, List.mem_append, Option.mem_toList] at hr
    rcases hr with hr | hr
    · have := h.closed r hr
      omega
    · have := hc.open_end r hr
      omega
  count := by rw [unsent_succ_of_mem hs]; exact h.count
  capped := h.capped

/-- The walk asks of the lists only what they hold. -/
theorem coverageLoop_congr {selected' observed' : List ℕ} (hselected : ∀ s, s ∈ selected ↔ s ∈ selected')
    (hobserved : ∀ s, s ∈ observed ↔ s ∈ observed') (steps n : ℕ) (w : Walk) :
    coverageLoop selected observed maximumUnavailable steps n w =
      coverageLoop selected' observed' maximumUnavailable steps n w := by
  induction steps generalizing n w with
  | zero => rfl
  | succ steps ih => simp only [coverageLoop, hselected, hobserved, ih]

/-! ### The plan -/

/-- The sequences up to `e` may be accounted for. -/
structure Reaches (selected observed : List ℕ) (maximumUnavailable after last e : ℕ) : Prop where
  start : after < e
  bound : e ≤ last
  sent : ∀ s ∈ observed, after < s → s ≤ e → s ∈ selected
  room : (unsent selected after (e + 1)).card ≤ maximumUnavailable

/-- **The specification of a plan**: it ends as far out as it may, and its ranges, with a gap between each two,
are the sequences that are not sent. -/
structure Specified (selected observed : List ℕ) (maximumUnavailable after last : ℕ) (plan : SyncCoveragePlan) :
    Prop where
  greatest : IsGreatest {e | Reaches selected observed maximumUnavailable after last e} plan.endSequence ∨
    (∀ e, ¬ Reaches selected observed maximumUnavailable after last e) ∧ plan.endSequence = 0
  ordered : plan.unavailableSequenceRanges.Pairwise fun r r' => r.endSequence + 1 < r'.startSequence
  within : ∀ r ∈ plan.unavailableSequenceRanges,
    after < r.startSequence ∧ r.startSequence ≤ r.endSequence ∧ r.endSequence ≤ plan.endSequence
  ranges_iff : ∀ s, (∃ r ∈ plan.unavailableSequenceRanges, r.Contains s) ↔
    after < s ∧ s ≤ plan.endSequence ∧ s ∉ selected

/-- **Where the walk stops is as far out as a plan may end.** -/
theorem specified_walk {last : ℕ} (hlast : after < last) :
    let w := coverageLoop selected observed maximumUnavailable (last - after) (after + 1) {}
    Specified selected observed maximumUnavailable after last
      { w.plan with unavailableSequenceRanges := w.plan.unavailableSequenceRanges ++ w.current.toList } := by
  obtain ⟨m, hm1, hm2, ⟨hn, hc, ho⟩, hstop⟩ := coverageLoop_induction maximumUnavailable
    (P := fun n w => after < n ∧ Covers selected observed after n w ∧ Ordered selected maximumUnavailable after n w)
    (fun h hns hno hroom => ⟨by omega, covers_skip h.1 h.2.1 hns hno, ordered_skip h.1 h.2.1 h.2.2 hns hroom⟩)
    (fun h hs => ⟨by omega, covers_send h.1 h.2.1 hs, ordered_send h.2.1 h.2.2 hs⟩)
    (last - after) ⟨Nat.lt_succ_self after, covers_start, ordered_start⟩
  generalize coverageLoop selected observed maximumUnavailable (last - after) (after + 1) {} = w at hc ho hstop
  have hranges : w.plan.unavailableSequenceRanges ++ w.current.toList = w.ranges := rfl
  have hend := hc.end_eq
  -- no plan ends at `m` or behind it
  have hupper : ∀ e, Reaches selected observed maximumUnavailable after last e → e < m := by
    intro e he
    by_contra hge
    have hbound := he.bound
    rcases hstop with h | h | h
    · omega
    · exact h.2 (he.sent m h.1 hn (by omega))
    · have hcard := Finset.card_le_card (unsent_subset selected after
        (show m + 1 ≤ e + 1 by omega))
      rw [card_unsent_succ hn h.1] at hcard
      have hroom := he.room
      have hcount := ho.count
      omega
  have hiff : ∀ s, (∃ r ∈ w.ranges, r.Contains s) ↔ after < s ∧ s ≤ w.plan.endSequence ∧ s ∉ selected := by
    intro s
    rw [hc.ranges_iff, hend]
    split_ifs with hfirst
    · constructor
      · rintro ⟨h1, h2, h3⟩; omega
      · rintro ⟨h1, h2, h3⟩; omega
    · constructor
      · rintro ⟨h1, h2, h3⟩; exact ⟨h1, by omega, h3⟩
      · rintro ⟨h1, h2, h3⟩; exact ⟨h1, by omega, h3⟩
  refine ⟨?_, ?_, fun r hr => ?_, hiff⟩
  · by_cases hfirst : m = after + 1
    · right
      refine ⟨fun e he => ?_, ?_⟩
      · have := hupper e he
        have := he.start
        omega
      · simp only [hend, if_pos hfirst]
    · left
      simp only [hend, if_neg hfirst]
      refine ⟨⟨by omega, by omega, fun s hs h1 h2 => hc.sent s h1 (by omega) hs, ?_⟩, fun e he => ?_⟩
      · rw [show m - 1 + 1 = m by omega, ← ho.count]
        exact ho.capped
      · have := hupper e he
        omega
  · exact ho.pairwise
  · rw [show ({ w.plan with unavailableSequenceRanges := w.plan.unavailableSequenceRanges ++ w.current.toList } :
      SyncCoveragePlan).unavailableSequenceRanges = w.ranges from rfl] at hr
    have hle := hc.nonempty r hr
    have hstart := (hiff r.startSequence).mp ⟨r, hr, Nat.le_refl _, hle⟩
    have hlast := (hiff r.endSequence).mp ⟨r, hr, hle, Nat.le_refl _⟩
    exact ⟨hstart.1, hle, hlast.2.1⟩

end

/-- **The plan of the device**: every run of the loop ends, after at most 2⁶⁴ passes, and what it returns meets
the specification. -/
theorem deriveSyncCoverage64_spec (afterSequence maximumScanned : UInt64) (selected observed : List UInt64)
    (maximumUnavailable : ℕ) :
    ∃ plan, (∀ fuel, 2 ^ 64 ≤ fuel → deriveSyncCoverage64 fuel afterSequence maximumScanned selected observed
        maximumUnavailable = some plan) ∧
      (0 < maximumUnavailable → afterSequence < maximumScanned →
        (∀ s ∈ selected, s ∈ observed ∧ afterSequence < s) →
        Specified (selected.map UInt64.toNat) (observed.map UInt64.toNat) maximumUnavailable afterSequence.toNat
          (desiredEnd maximumScanned.toNat (selected.map UInt64.toNat)) plan) := by
  unfold deriveSyncCoverage64
  split_ifs with hnone
  · refine ⟨_, fun _ _ => rfl, fun hcap hscan _ => ?_⟩
    have hbound := maximumScanned.toNat_lt
    rw [UInt64.le_iff_toNat_le] at hnone
    rw [UInt64.lt_iff_toNat_lt] at hscan
    omega
  · simp only [not_or, UInt64.le_iff_toNat_le] at hnone
    have hbound := afterSequence.toNat_lt
    have hadd : (afterSequence + 1).toNat = afterSequence.toNat + 1 := by
      rw [UInt64.toNat_add, UInt64.toNat_one]
      omega
    have hlast := toNat_desiredEnd64 maximumScanned selected
    have hlastBound := (desiredEnd64 maximumScanned (sortUnique selected)).toNat_lt
    have hmem (values : List UInt64) (s : ℕ) :
        s ∈ (sortUnique values).map UInt64.toNat ↔ s ∈ values.map UInt64.toNat := by
      simp only [List.mem_map, mem_sortUnique]
    have hloop (fuel : ℕ) (hfuel : 2 ^ 64 ≤ fuel) := coverageLoop64_eq (sortUnique selected) (sortUnique observed)
      maximumUnavailable (desiredEnd64 maximumScanned (sortUnique selected)) fuel (afterSequence + 1) {} (by omega)
    rw [hadd, hlast, Nat.add_sub_add_right, coverageLoop_congr (hmem selected) (hmem observed)] at hloop
    refine ⟨_, fun fuel hfuel => by rw [hloop fuel hfuel]; rfl, fun _ hscan hselected => specified_walk ?_⟩
    -- a page wants to end behind the cursor
    unfold desiredEnd
    rw [UInt64.lt_iff_toNat_lt] at hscan
    cases hmax : (selected.map UInt64.toNat).max? with
    | none => exact hscan
    | some back =>
      obtain ⟨v, hv, rfl⟩ := List.mem_map.mp (List.max?_mem hmax)
      have := UInt64.lt_iff_toNat_lt.mp (hselected v hv).2
      simp only
      omega

/-- A page may end at the largest number. -/
theorem deriveSyncCoverage64_last : ∃ plan, (∀ fuel, 2 ^ 64 ≤ fuel →
      deriveSyncCoverage64 fuel 18446744073709551610 18446744073709551615 [18446744073709551615]
        [18446744073709551615] 5 = some plan) ∧
    Specified [18446744073709551615] [18446744073709551615] 5 18446744073709551610 18446744073709551615 plan := by
  obtain ⟨plan, hrun, hspec⟩ := deriveSyncCoverage64_spec 18446744073709551610 18446744073709551615
    [18446744073709551615] [18446744073709551615] 5
  exact ⟨plan, hrun, hspec (by decide) (by decide) (by simp)⟩

end PowerMonitor.Storage.CoverageRanges
