import PowerMonitor.Reset.RecordStore

/-! # The generations of the stored records

An operation that was completed is followed by one for a larger generation only, and one that was cancelled
by one that is not for a smaller generation. So no generation comes back, however many operations are stored
one after another (`accepted_generationLaw`). -/

namespace PowerMonitor.Reset.Generations

open PowerMonitor.Lib.Binary PowerMonitor.Lib.Program
open PowerMonitor.Config.AtomicConfigStore
open PowerMonitor.Reset.Policy PowerMonitor.Reset.Operation PowerMonitor.Reset.RecordStore

variable {r r' : Record} {rs : List Record}

/-- The generation a record resets to. -/
abbrev generation (r : Record) : UInt64 := r.prepare.targetGeneration

/-- **The law of the generations** of a sequence of records. -/
structure GenerationLaw (rs : List Record) : Prop where
  /-- the records of an operation follow each other up to one that ends it -/
  contiguous : ∀ (i j : ℕ) (r r' : Record), i ≤ j → rs[i]? = some r → rs[j]? = some r' →
    r'.prepare.operationId ≠ r.prepare.operationId →
    ∃ (k : ℕ) (q : Record), i ≤ k ∧ k < j ∧ rs[k]? = some q ∧ q.prepare.operationId = r.prepare.operationId ∧
      terminalState q.state = true
  /-- no generation is smaller than an earlier one -/
  monotone : ∀ (i j : ℕ) (r r' : Record), i ≤ j → rs[i]? = some r → rs[j]? = some r' → generation r ≤ generation r'
  /-- whatever is stored after a completed record is that record, or for a larger generation -/
  strict : ∀ (i j : ℕ) (r r' : Record), i ≤ j → rs[i]? = some r → rs[j]? = some r' → r.state = .completed →
    r' = r ∨ generation r < generation r'

/-! ### One update -/

theorem generation_le_of_successor (h : validSuccessor r r' = true) : generation r ≤ generation r' := by
  simp only [validSuccessor, Bool.and_eq_true] at h
  have hgeneration := h.2
  split_ifs at hgeneration with hcompleted
  · exact UInt64.le_of_lt (by simpa using hgeneration)
  · simpa using hgeneration

theorem generation_lt_of_completed (h : validSuccessor r r' = true) (hcompleted : r.state = .completed) :
    generation r < generation r' := by
  simp only [validSuccessor, Bool.and_eq_true] at h
  have hgeneration := h.2
  rw [if_pos hcompleted] at hgeneration
  simpa using hgeneration

/-- Nothing continues a completed record. -/
theorem not_continued_of_completed (h : validContinuation r r' = true) : r.state ≠ .completed := by
  intro hcompleted
  simp only [validContinuation, Bool.and_eq_true] at h
  have htransition : canTransition r.state r'.state r'.checkpoint = true := by tauto
  rw [hcompleted] at htransition
  have hnone : canTransition .completed r'.state r'.checkpoint = false := by
    unfold canTransition
    split_ifs with hplace hsame
    · rfl
    · rfl
    · rfl
  rw [hnone] at htransition
  cases htransition

/-- **What the next record's generation is.** -/
theorem Follows.generation (h : Follows r r') : generation r ≤ generation r' ∧
    (r.state = .completed → r' = r ∨ generation r < generation r') := by
  rcases h with rfl | hupdate
  · exact ⟨UInt64.le_refl _, fun _ => Or.inl rfl⟩
  · by_cases hid : r'.prepare.operationId = r.prepare.operationId
    · have hcontinues := validContinuation_of_update hupdate hid
      have hprepare := (validContinuation_continues hcontinues).prepare
      refine ⟨?_, fun hcompleted => absurd hcompleted (not_continued_of_completed hcontinues)⟩
      rw [Generations.generation, Generations.generation, hprepare]
      exact UInt64.le_refl _
    · have hsuccessor := validSuccessor_of_update hupdate hid
      exact ⟨generation_le_of_successor hsuccessor, fun hcompleted =>
        Or.inr (generation_lt_of_completed hsuccessor hcompleted)⟩

/-! ### The sequence -/

theorem exists_getElem {j : ℕ} (hlt : rs[j + 1]? = some r) : ∃ q, rs[j]? = some q := by
  obtain ⟨hj, -⟩ := List.getElem?_eq_some_iff.mp hlt
  exact ⟨_, List.getElem?_eq_getElem (by omega)⟩

/-- The generations of two records, one some places after the other. -/
theorem StoredSequence.generation (h : StoredSequence rs) {i j : ℕ} (hij : i ≤ j) (hr : rs[i]? = some r)
    (hr' : rs[j]? = some r') : generation r ≤ generation r' ∧
    (r.state = .completed → r' = r ∨ generation r < generation r') := by
  induction j, hij using Nat.le_induction generalizing r' with
  | base =>
    rw [hr, Option.some.injEq] at hr'
    subst hr'
    exact ⟨UInt64.le_refl _, fun _ => Or.inl rfl⟩
  | succ j hij ih =>
    obtain ⟨q, hq⟩ := exists_getElem hr'
    obtain ⟨hle, hstrict⟩ := ih hq
    obtain ⟨hle', hstrict'⟩ := Follows.generation (h.follows hq hr')
    refine ⟨UInt64.le_trans hle hle', fun hcompleted => ?_⟩
    rcases hstrict hcompleted with rfl | hlt
    · exact hstrict' hcompleted
    · exact Or.inr (UInt64.lt_of_lt_of_le hlt hle')

/-- An operation is followed by another one only after it ended. -/
theorem StoredSequence.ended (h : StoredSequence rs) {i j : ℕ} (hij : i ≤ j) (hr : rs[i]? = some r)
    (hr' : rs[j]? = some r') (hid : r'.prepare.operationId ≠ r.prepare.operationId) :
    ∃ (k : ℕ) (q : Record), i ≤ k ∧ k < j ∧ rs[k]? = some q ∧ q.prepare.operationId = r.prepare.operationId ∧
      terminalState q.state = true := by
  induction j, hij using Nat.le_induction generalizing r' with
  | base =>
    rw [hr, Option.some.injEq] at hr'
    exact absurd (hr' ▸ rfl) hid
  | succ j hij ih =>
    obtain ⟨q, hq⟩ := exists_getElem hr'
    by_cases hsame : q.prepare.operationId = r.prepare.operationId
    · have hended := (h.terminal_before hq hr' (by rwa [hsame])).1
      exact ⟨j, q, hij, by omega, hq, hsame, by simpa [terminalState] using hended⟩
    · obtain ⟨k, p, hik, hkj, hp⟩ := ih hq hsame
      exact ⟨k, p, hik, by omega, hp⟩

theorem StoredSequence.generationLaw (h : StoredSequence rs) : GenerationLaw rs where
  contiguous _ _ _ _ hij hr hr' hid := StoredSequence.ended h hij hr hr' hid
  monotone _ _ _ _ hij hr hr' := (StoredSequence.generation h hij hr hr').1
  strict _ _ _ _ hij hr hr' := (StoredSequence.generation h hij hr hr').2

/-- **The generations of the records accepted from an empty store only move forward.** -/
theorem accepted_generationLaw {s : Store} (h : Accepted rs s) : GenerationLaw rs :=
  StoredSequence.generationLaw h.stored.1

theorem asked_withdrawn_generations : ∃ s, Accepted [asked, withdrawn] s ∧ GenerationLaw [asked, withdrawn] := by
  obtain ⟨s, h⟩ := asked_withdrawn_accepted
  exact ⟨s, h, accepted_generationLaw h⟩

end PowerMonitor.Reset.Generations
