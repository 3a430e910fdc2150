import Mathlib.Algebra.GroupWithZero.Nat
import Mathlib.Data.List.MinMax
import Mathlib.Tactic.SplitIfs
import Mathlib.Tactic.Common

/-! # The coverage of a page

A page of readings accounts to the server for every sequence from the acknowledgement cursor to its
end: a sequence is sent, or declared unavailable. `deriveSyncCoverage` walks the sequences after the
cursor and stops before a reading that was seen and is not sent.

* `coverageLoop_covers`: where the walk stops and what it has accounted for.
* `deriveSyncCoverage_spec`: the same of the whole plan. -/

namespace PowerMonitor.Storage.SyncCoverage

structure SequenceRange where
  startSequence : ℕ
  endSequence : ℕ
  deriving DecidableEq, Repr

/-- The sequence lies in the range. -/
def SequenceRange.Contains (r : SequenceRange) (s : ℕ) : Prop := r.startSequence ≤ s ∧ s ≤ r.endSequence

instance (r : SequenceRange) (s : ℕ) : Decidable (r.Contains s) :=
  inferInstanceAs (Decidable (_ ∧ _))

structure SyncCoveragePlan where
  endSequence : ℕ := 0
  unavailableSequenceRanges : List SequenceRange := []
  deriving DecidableEq, Repr

/-- The variables of the walk. -/
structure Walk where
  plan : SyncCoveragePlan := {}
  unavailableCount : ℕ := 0
  current : Option SequenceRange := none

/-- A sequence that is not sent. -/
def Walk.skip (w : Walk) (sequence : ℕ) : Walk where
  unavailableCount := w.unavailableCount + 1
  current :=
    match w.current with
    | none => some ⟨sequence, sequence⟩
    | some r => if sequence = r.endSequence + 1 then some ⟨r.startSequence, sequence⟩
        else some ⟨sequence, sequence⟩
  plan := {
    endSequence := sequence
    unavailableSequenceRanges :=
      match w.current with
      | none => w.plan.unavailableSequenceRanges
      | some r => if sequence = r.endSequence + 1 then w.plan.unavailableSequenceRanges
          else w.plan.unavailableSequenceRanges ++ [r] }

/-- A sequence that is sent. -/
def Walk.send (w : Walk) (sequence : ℕ) : Walk where
  unavailableCount := w.unavailableCount
  current := none
  plan := {
    endSequence := sequence
    unavailableSequenceRanges := w.plan.unavailableSequenceRanges ++ w.current.toList }

/-- At most `steps` sequences from `sequence` on. -/
def coverageLoop (selected observed : List ℕ) (maximumUnavailable : ℕ) : ℕ → ℕ → Walk → Walk
  | 0, _, w => w
  | steps + 1, sequence, w =>
    if sequence ∈ observed ∧ sequence ∉ selected then w
    else if sequence ∉ selected then
      if w.unavailableCount ≥ maximumUnavailable then w
      else coverageLoop selected observed maximumUnavailable steps (sequence + 1) (w.skip sequence)
    else coverageLoop selected observed maximumUnavailable steps (sequence + 1) (w.send sequence)

/-- Where a page wants to end. -/
def desiredEnd (maximumScanned : ℕ) (selected : List ℕ) : ℕ :=
  match selected.max? with
  | none => maximumScanned
  | some m => min maximumScanned m

def deriveSyncCoverage (afterSequence maximumScanned : ℕ) (selected observed : List ℕ)
    (maximumUnavailable : ℕ) : SyncCoveragePlan :=
  if maximumScanned ≤ afterSequence ∨ maximumUnavailable = 0 ∨ afterSequence = 2 ^ 64 - 1 then {}
  else
    let w := coverageLoop selected observed maximumUnavailable
      (desiredEnd maximumScanned selected - afterSequence) (afterSequence + 1) {}
    { w.plan with
      unavailableSequenceRanges := w.plan.unavailableSequenceRanges ++ w.current.toList }

/-! ### The walk -/

/-- The ranges the walk has found, the open one included. -/
def Walk.ranges (w : Walk) : List SequenceRange := w.plan.unavailableSequenceRanges ++ w.current.toList

/-- **The sequences between the cursor and `n` are accounted for.** -/
structure Covers (selected observed : List ℕ) (after n : ℕ) (w : Walk) : Prop where
  end_eq : w.plan.endSequence = if n = after + 1 then 0 else n - 1
  count : w.unavailableCount ≤ n - 1 - after
  open_end : ∀ r, w.current = some r → r.endSequence + 1 = n
  nonempty : ∀ r ∈ w.ranges, r.startSequence ≤ r.endSequence
  ranges_iff : ∀ s, (∃ r ∈ w.ranges, r.Contains s) ↔ after < s ∧ s < n ∧ s ∉ selected
  sent : ∀ s, after < s → s < n → s ∈ observed → s ∈ selected

variable {selected observed : List ℕ} {maximumUnavailable after n : ℕ} {w : Walk}

theorem covers_start : Covers selected observed after (after + 1) {} where
  end_eq := by simp
  count := by simp
  open_end := by simp
  nonempty := by simp [Walk.ranges]
  ranges_iff s := by simp [Walk.ranges]; omega
  sent s h1 h2 := by omega

/-- The ranges after a skipped sequence. -/
theorem contains_skip (h : Covers selected observed after n w) (s : ℕ) :
    (∃ r ∈ (w.skip n).ranges, r.Contains s) ↔ (∃ r ∈ w.ranges, r.Contains s) ∨ s = n := by
  cases hc : w.current with
  | none =>
    simp only [Walk.ranges, Walk.skip, hc, Option.toList_some, Option.toList_none, List.append_nil,
      List.mem_append, List.mem_singleton]
    constructor
    · rintro ⟨r, hr | rfl, hs⟩
      · exact Or.inl ⟨r, hr, hs⟩
      · right; simp only [SequenceRange.Contains] at hs; omega
    · rintro (⟨r, hr, hs⟩ | rfl)
      · exact ⟨r, Or.inl hr, hs⟩
      · exact ⟨_, Or.inr rfl, by simp [SequenceRange.Contains]⟩
  | some c =>
    have hend := h.open_end c hc
    have hle := h.nonempty c (by simp [Walk.ranges, hc])
    simp only [Walk.ranges, Walk.skip, hc, if_pos hend.symm, Option.toList_some, List.mem_append,
      List.mem_singleton]
    constructor
    · rintro ⟨r, hr | rfl, hs⟩
      · exact Or.inl ⟨r, Or.inl hr, hs⟩
      · simp only [SequenceRange.Contains] at hs
        by_cases hsn : s = n
        · exact Or.inr hsn
        · exact Or.inl ⟨c, Or.inr rfl, by simp only [SequenceRange.Contains]; omega⟩
    · rintro (⟨r, hr | rfl, hs⟩ | rfl)
      · exact ⟨r, Or.inl hr, hs⟩
      · simp only [SequenceRange.Contains] at hs
        exact ⟨_, Or.inr rfl, by simp only [SequenceRange.Contains]; omega⟩
      · exact ⟨_, Or.inr rfl, by simp only [SequenceRange.Contains]; omega⟩

theorem covers_skip (hn : after < n) (h : Covers selected observed after n w)
    (hns : n ∉ selected) (hno : n ∉ observed) :
    Covers selected observed after (n + 1) (w.skip n) where
  end_eq := by simp [Walk.skip, show n ≠ after by omega]
  count := by have := h.count; simp only [Walk.skip]; omega
  open_end r hr := by
    simp only [Walk.skip] at hr
    split at hr
    · cases hr; rfl
    · split_ifs at hr <;> cases hr <;> rfl
  nonempty r hr := by
    cases hc : w.current with
    | none =>
      simp only [Walk.ranges, Walk.skip, hc, Option.toList_some, List.mem_append,
        List.mem_singleton] at hr
      rcases hr with hr | rfl
      · exact h.nonempty r (by simp [Walk.ranges, hr])
      · exact Nat.le_refl _
    | some c =>
      have hend := h.open_end c hc
      have hle := h.nonempty c (by simp [Walk.ranges, hc])
      simp only [Walk.ranges, Walk.skip, hc, if_pos hend.symm, Option.toList_some, List.mem_append,
        List.mem_singleton] at hr
      rcases hr with hr | rfl
      · exact h.nonempty r (by simp [Walk.ranges, hr])
      · simp only; omega
  ranges_iff s := by
    rw [contains_skip h, h.ranges_iff]
    constructor
    · rintro (⟨h1, h2, h3⟩ | rfl)
      · exact ⟨h1, by omega, h3⟩
      · exact ⟨hn, by omega, hns⟩
    · rintro ⟨h1, h2, h3⟩
      by_cases hsn : s = n
      · exact Or.inr hsn
      · exact Or.inl ⟨h1, by omega, h3⟩
  sent s h1 h2 h3 := by
    by_cases hsn : s = n
    · subst hsn; exact absurd h3 hno
    · exact h.sent s h1 (by omega) h3

theorem covers_send (hn : after < n) (h : Covers selected observed after n w) (hs : n ∈ selected) :
    Covers selected observed after (n + 1) (w.send n) where
  end_eq := by simp [Walk.send, show n ≠ after by omega]
  count := by have := h.count; simp only [Walk.send]; omega
  open_end r hr := by simp [Walk.send] at hr
  nonempty r hr := h.nonempty r (by simpa [Walk.ranges, Walk.send] using hr)
  ranges_iff s := by
    have hr : (w.send n).ranges = w.ranges := by simp [Walk.ranges, Walk.send]
    rw [hr, h.ranges_iff]
    constructor
    · rintro ⟨h1, h2, h3⟩; exact ⟨h1, by omega, h3⟩
    · rintro ⟨h1, h2, h3⟩
      refine ⟨h1, ?_, h3⟩
      by_contra hlt
      obtain rfl : s = n := by omega
      exact h3 hs
  sent s h1 h2 h3 := by
    by_cases hsn : s = n
    · subst hsn; exact hs
    · exact h.sent s h1 (by omega) h3

/-- **What a step keeps, a walk keeps**; it stops after its last step, before a reading that is seen and not
sent, or with as many unavailable sequences as it may declare. -/
theorem coverageLoop_induction (maximumUnavailable : ℕ) {P : ℕ → Walk → Prop}
    (hskip : ∀ {n w}, P n w → n ∉ selected → n ∉ observed → w.unavailableCount < maximumUnavailable →
      P (n + 1) (w.skip n))
    (hsend : ∀ {n w}, P n w → n ∈ selected → P (n + 1) (w.send n)) (steps : ℕ) :
    ∀ {n w}, P n w → ∃ m, n ≤ m ∧ m ≤ n + steps ∧
      P m (coverageLoop selected observed maximumUnavailable steps n w) ∧
      (m = n + steps ∨ (m ∈ observed ∧ m ∉ selected) ∨ (m ∉ selected ∧ maximumUnavailable ≤
        (coverageLoop selected observed maximumUnavailable steps n w).unavailableCount)) := by
  induction steps with
  | zero =>
    intro n w h
    exact ⟨n, Nat.le_refl _, Nat.le_refl _, h, Or.inl rfl⟩
  | succ steps ih =>
    intro n w h
    unfold coverageLoop
    split_ifs with h1 h2 h3
    · exact ⟨n, Nat.le_refl _, by omega, h, Or.inr (Or.inl h1)⟩
    · obtain ⟨m, hm1, hm2, hc, hstop⟩ := ih (hsend h h2)
      exact ⟨m, by omega, by omega, hc, by rwa [show n + 1 + steps = n + (steps + 1) by omega] at hstop⟩
    · exact ⟨n, Nat.le_refl _, by omega, h, Or.inr (Or.inr ⟨h2, h3⟩)⟩
    · have hno : n ∉ observed := fun ho => h1 ⟨ho, h2⟩
      obtain ⟨m, hm1, hm2, hc, hstop⟩ := ih (hskip h h2 hno (by omega))
      exact ⟨m, by omega, by omega, hc, by rwa [show n + 1 + steps = n + (steps + 1) by omega] at hstop⟩

theorem coverageLoop_covers (maximumUnavailable steps : ℕ) {n w} (hn : after < n)
    (h : Covers selected observed after n w) :
    ∃ m, n ≤ m ∧ m ≤ n + steps ∧
      Covers selected observed after m (coverageLoop selected observed maximumUnavailable steps n w) ∧
      (m = n + steps ∨ (m ∈ observed ∧ m ∉ selected) ∨ (m ∉ selected ∧ maximumUnavailable ≤
        (coverageLoop selected observed maximumUnavailable steps n w).unavailableCount)) := by
  obtain ⟨m, hm1, hm2, hc, hstop⟩ := coverageLoop_induction maximumUnavailable
    (P := fun n w => after < n ∧ Covers selected observed after n w)
    (fun h hns hno _ => ⟨by omega, covers_skip h.1 h.2 hns hno⟩)
    (fun h hs => ⟨by omega, covers_send h.1 h.2 hs⟩) steps ⟨hn, h⟩
  exact ⟨m, hm1, hm2, hc.2, hstop⟩

/-! ### The plan -/

/-- **What a plan accounts for**: the sequences up to `covered`, which is where it wants to end unless
a reading that is seen and not sent follows, or it may declare no more. -/
theorem deriveSyncCoverage_spec (observed : List ℕ) {maximumScanned : ℕ} (hscan : after < maximumScanned)
    (hcap : maximumUnavailable ≠ 0) (hafter : after ≠ 2 ^ 64 - 1)
    (hselected : ∀ s ∈ selected, after < s) :
    let plan := deriveSyncCoverage after maximumScanned selected observed maximumUnavailable
    ∃ covered, after ≤ covered ∧ covered ≤ desiredEnd maximumScanned selected ∧
      plan.endSequence = (if covered = after then 0 else covered) ∧
      (∀ s, (∃ r ∈ plan.unavailableSequenceRanges, r.Contains s) ↔
        after < s ∧ s ≤ covered ∧ s ∉ selected) ∧
      (∀ r ∈ plan.unavailableSequenceRanges, r.startSequence ≤ r.endSequence) ∧
      (∀ s, after < s → s ≤ covered → s ∈ observed → s ∈ selected) ∧
      (covered = desiredEnd maximumScanned selected ∨
        (covered + 1 ∈ observed ∧ covered + 1 ∉ selected) ∨
        (covered + 1 ∉ selected ∧ maximumUnavailable ≤ covered - after)) := by
  have hdesired : after < desiredEnd maximumScanned selected := by
    unfold desiredEnd
    cases hm : selected.max? with
    | none => exact hscan
    | some m =>
      have := hselected m (List.max?_mem hm)
      simp only
      omega
  have hstart : Covers selected observed after (after + 1) {} := covers_start
  obtain ⟨m, hm1, hm2, hc, hstop⟩ := coverageLoop_covers maximumUnavailable
    (desiredEnd maximumScanned selected - after) (Nat.lt_succ_self after) hstart
  simp only [deriveSyncCoverage]
  rw [if_neg (by omega)]
  generalize coverageLoop selected observed maximumUnavailable
    (desiredEnd maximumScanned selected - after) (after + 1) {} = w at hc hstop
  refine ⟨m - 1, by omega, by omega, ?_, fun s => ?_, hc.nonempty, fun s h1 h2 => hc.sent s h1 (by omega),
    ?_⟩
  · rw [hc.end_eq]
    split_ifs <;> omega
  · rw [show w.plan.unavailableSequenceRanges ++ w.current.toList = w.ranges from rfl, hc.ranges_iff]
    constructor
    · rintro ⟨h1, h2, h3⟩; exact ⟨h1, by omega, h3⟩
    · rintro ⟨h1, h2, h3⟩; exact ⟨h1, by omega, h3⟩
  · have hcount := hc.count
    rw [show m - 1 + 1 = m by omega]
    rcases hstop with h | h | h
    · left; omega
    · exact Or.inr (Or.inl h)
    · exact Or.inr (Or.inr ⟨h.1, by omega⟩)

end PowerMonitor.Storage.SyncCoverage
