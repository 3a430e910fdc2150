import Mathlib.Order.Bounds.Basic
import Mathlib.Tactic.Common

/-! # Walks over a list

A walk over a list feeds a state with the items each element holds, and stops at an element that does
not hold any it can read. `gather` is the list of all the items, if every element can be read; a walk
succeeds with the fold of these (`foldlM_eq_ok_iff`).

A value that each step raises to the greatest of some numbers ends as the greatest of all of them
(`isGreatest_foldl`). -/

namespace PowerMonitor.Lib.Walk

variable {α β σ ε : Type}

/-- The items of all elements, if each has its own. -/
def gather (items : α → Option (List β)) : List α → Option (List β)
  | [] => some []
  | x :: xs =>
    match items x, gather items xs with
    | some bs, some rest => some (bs ++ rest)
    | _, _ => none

variable {items : α → Option (List β)}

theorem gather_cons_eq_some {x : α} {xs : List α} {bs : List β} :
    gather items (x :: xs) = some bs ↔
      ∃ first rest, items x = some first ∧ gather items xs = some rest ∧ bs = first ++ rest := by
  simp only [gather]
  split
  · next first rest h1 h2 =>
    constructor
    · intro h; exact ⟨first, rest, h1, h2, by simpa using h.symm⟩
    · rintro ⟨first', rest', h1', h2', rfl⟩
      rw [h1] at h1'; rw [h2] at h2'; cases h1'; cases h2'; rfl
  · next h =>
    constructor
    · intro h'; cases h'
    · rintro ⟨first, rest, h1, h2, -⟩; exact absurd h2 (h first rest h1)

theorem mem_of_gather {l : List α} {bs : List β} (h : gather items l = some bs) (b : β) :
    b ∈ bs ↔ ∃ x ∈ l, ∃ first, items x = some first ∧ b ∈ first := by
  induction l generalizing bs with
  | nil => cases h; simp
  | cons x l ih =>
    obtain ⟨first, rest, h1, h2, rfl⟩ := gather_cons_eq_some.mp h
    rw [List.mem_append, ih h2]
    simp [h1]

theorem gather_isSome {l : List α} :
    (gather items l).isSome ↔ ∀ x ∈ l, (items x).isSome := by
  induction l with
  | nil => simp [gather]
  | cons x l ih =>
    rw [List.forall_mem_cons, ← ih]
    simp only [gather]
    cases items x <;> cases gather items l <;> simp

/-- The items that are kept of all elements are the same if those of each element are. -/
theorem gather_filter {items' : α → Option (List β)} {p : β → Bool} {l : List α}
    (h : ∀ x ∈ l, ∃ bs bs', items x = some bs ∧ items' x = some bs' ∧ bs.filter p = bs'.filter p) :
    ∃ bs bs', gather items l = some bs ∧ gather items' l = some bs' ∧ bs.filter p = bs'.filter p := by
  induction l with
  | nil => exact ⟨[], [], rfl, rfl, rfl⟩
  | cons x l ih =>
    rw [List.forall_mem_cons] at h
    obtain ⟨⟨bs, bs', hbs, hbs', heq⟩, hrest⟩ := h
    obtain ⟨rest, rest', hgather, hgather', heq'⟩ := ih hrest
    refine ⟨bs ++ rest, bs' ++ rest', ?_, ?_, ?_⟩
    · exact gather_cons_eq_some.mpr ⟨bs, rest, hbs, hgather, rfl⟩
    · exact gather_cons_eq_some.mpr ⟨bs', rest', hbs', hgather', rfl⟩
    · rw [List.filter_append, List.filter_append, heq, heq']

/-- **A walk succeeds** when every element can be read, with the fold of all items. -/
theorem foldlM_eq_ok_iff {step : σ → α → Except ε σ} {f : σ → β → Except ε σ}
    (hstep : ∀ s x s', step s x = .ok s' ↔ ∃ bs, items x = some bs ∧ bs.foldlM f s = .ok s')
    (l : List α) (s s' : σ) :
    l.foldlM step s = .ok s' ↔ ∃ bs, gather items l = some bs ∧ bs.foldlM f s = .ok s' := by
  induction l generalizing s with
  | nil => simp [gather]
  | cons x l ih =>
    have hbind : (x :: l).foldlM step s = .ok s' ↔
        ∃ t, step s x = .ok t ∧ l.foldlM step t = .ok s' := by
      rw [List.foldlM_cons]
      cases step s x <;> simp [bind, Except.bind]
    have happend : ∀ first rest : List β, (first ++ rest).foldlM f s = .ok s' ↔
        ∃ t, first.foldlM f s = .ok t ∧ rest.foldlM f t = .ok s' := by
      intro first rest
      rw [List.foldlM_append]
      cases first.foldlM f s <;> simp [bind, Except.bind]
    rw [hbind]
    constructor
    · rintro ⟨t, ht, hl⟩
      obtain ⟨first, h1, h2⟩ := (hstep s x t).mp ht
      obtain ⟨rest, h3, h4⟩ := (ih t).mp hl
      exact ⟨first ++ rest, gather_cons_eq_some.mpr ⟨first, rest, h1, h3, rfl⟩,
        (happend first rest).mpr ⟨t, h2, h4⟩⟩
    · rintro ⟨bs, hg, hf⟩
      obtain ⟨first, rest, h1, h3, rfl⟩ := gather_cons_eq_some.mp hg
      obtain ⟨t, h2, h4⟩ := (happend first rest).mp hf
      exact ⟨t, (hstep s x t).mpr ⟨first, h1, h2⟩, (ih t).mpr ⟨rest, h3, h4⟩⟩

/-! ### Greatest values -/

theorem isGreatest_insert_union {S T : Set ℕ} {a b c : ℕ} (h : IsGreatest (insert a S) b)
    (h' : IsGreatest (insert b T) c) : IsGreatest (insert a (S ∪ T)) c := by
  obtain ⟨hmem, hbound⟩ := h
  obtain ⟨hmem', hbound'⟩ := h'
  have hle : b ≤ c := hbound' (Set.mem_insert b T)
  constructor
  · rcases hmem' with rfl | hT
    · rcases hmem with rfl | hS
      · exact Set.mem_insert c _
      · exact Or.inr (Or.inl hS)
    · exact Or.inr (Or.inr hT)
  · rintro s (rfl | hS | hT)
    · exact (hbound (Set.mem_insert s S)).trans hle
    · exact (hbound (Or.inr hS)).trans hle
    · exact hbound' (Or.inr hT)

/-- **The greatest value of a fold** whose steps raise a value to the greatest of some numbers. -/
theorem isGreatest_foldl {step : σ → α → σ} (value : σ → ℕ) (S : α → Set ℕ) {l : List α}
    (hstep : ∀ s, ∀ a ∈ l, IsGreatest (insert (value s) (S a)) (value (step s a))) (s : σ) :
    IsGreatest (insert (value s) {n | ∃ a ∈ l, n ∈ S a}) (value (l.foldl step s)) := by
  induction l generalizing s with
  | nil => simp [IsGreatest, upperBounds]
  | cons a l ih =>
    have hfirst := hstep s a (by simp)
    have hrest := ih (fun s b hb => hstep s b (by simp [hb])) (step s a)
    have hset : {n | ∃ b ∈ a :: l, n ∈ S b} = S a ∪ {n | ∃ b ∈ l, n ∈ S b} := by
      ext n
      simp
    rw [hset, List.foldl_cons]
    exact isGreatest_insert_union hfirst hrest

end PowerMonitor.Lib.Walk
