import Mathlib.Data.List.Chain

/-! # Counters that fall back

A counter that is restarted falls to a small value and counts on. What it has counted is the sum of its increases,
where a value below the one before it was counted from zero. The same sum is the last value with the values from which
the counter fell (`first_add_gained`). A reader that sees only the first and the last value of each stretch adds the
first one when the last one is smaller; `kept_iff` says for which stretches this is what was dropped. -/

namespace PowerMonitor.Lib.Odometer

/-- What a counter has counted since its first value. -/
def gained : List ℕ → ℕ
  | a :: b :: cs => (if a ≤ b then b - a else b) + gained (b :: cs)
  | _ => 0

/-- The sum of the values from which the counter fell. -/
def dropped : List ℕ → ℕ
  | a :: b :: cs => (if a ≤ b then 0 else a) + dropped (b :: cs)
  | _ => 0

@[simp] theorem dropped_singleton (c : ℕ) : dropped [c] = 0 := rfl

theorem dropped_cons_cons (a b : ℕ) (cs : List ℕ) :
    dropped (a :: b :: cs) = (if a ≤ b then 0 else a) + dropped (b :: cs) := rfl

/-- **The two sums**: the increases after the first value, and the last value after the falls. -/
theorem first_add_gained (c : ℕ) (cs : List ℕ) : c + gained (c :: cs) = cs.getLastD c + dropped (c :: cs) := by
  induction cs generalizing c with
  | nil => rfl
  | cons b cs ih =>
    have hrest := ih b
    rw [List.getLastD_cons, gained, dropped]
    split <;> omega

/-- The first value and what was counted since. -/
def counted : List ℕ → ℕ
  | [] => 0
  | c :: cs => c + gained (c :: cs)

theorem counted_cons (c : ℕ) (cs : List ℕ) : counted (c :: cs) = cs.getLastD c + dropped (c :: cs) :=
  first_add_gained c cs

theorem dropped_head (c : ℕ) (cs : List ℕ) : dropped (c :: c :: cs) = dropped (c :: cs) := by
  rw [dropped_cons_cons, if_pos le_rfl, Nat.zero_add]

theorem dropped_append_cons (before : List ℕ) (c : ℕ) (after : List ℕ) :
    dropped (before ++ c :: after) = dropped (before ++ [c]) + dropped (c :: after) := by
  induction before with
  | nil => simp
  | cons a before ih =>
    cases before with
    | nil => simp [dropped]
    | cons b before =>
      simp only [List.cons_append] at ih ⊢
      rw [dropped_cons_cons, dropped_cons_cons, ih, Nat.add_assoc]

theorem dropped_eq_zero {cs : List ℕ} : dropped cs = 0 ↔ cs.IsChain (· ≤ ·) := by
  induction cs with
  | nil => simp [dropped]
  | cons a cs ih =>
    cases cs with
    | nil => simp
    | cons b cs =>
      rw [dropped_cons_cons, List.isChain_cons_cons, ← ih]
      split <;> omega

/-- A counter that ends below a value fell from that value or from a greater one. -/
theorem le_dropped {c : ℕ} {cs : List ℕ} (h : cs.getLastD c < c) : c ≤ dropped (c :: cs) := by
  induction cs generalizing c with
  | nil => exact absurd h (lt_irrefl c)
  | cons b cs ih =>
    rw [List.getLastD_cons] at h
    rw [dropped_cons_cons]
    split
    · have hrest : b ≤ dropped (b :: cs) := ih (by omega)
      omega
    · omega

/-! ### Stretches -/

/-- The falls of a stretch, the step into it among them, are known from its first and its last value: there is none,
or there is one, from a value equal to the first. -/
def Kept (previous : ℕ) : List ℕ → Prop
  | [] => True
  | first :: rest =>
    (previous :: first :: rest).IsChain (· ≤ ·) ∨ previous ≤ first ∧ ∃ n fallen later,
      rest = List.replicate n first ++ fallen :: later ∧ fallen < first ∧ (fallen :: later).IsChain (· ≤ ·) ∧
        later.getLastD fallen < first

theorem dropped_replicate (first : ℕ) (n : ℕ) (later : List ℕ) :
    dropped (first :: (List.replicate n first ++ later)) = dropped (first :: later) := by
  induction n with
  | zero => rfl
  | succ n ih => rw [List.replicate_succ, List.cons_append, dropped_head, ih]

theorem getLastD_append_cons {α : Type*} (before : List α) (c : α) (after : List α) (a : α) :
    (before ++ c :: after).getLastD a = after.getLastD c := by
  induction before generalizing a with
  | nil => rw [List.nil_append, List.getLastD_cons]
  | cons b before ih => rw [List.cons_append, List.getLastD_cons, ih]

/-- A stretch that ends below its first value and dropped no more than that fell once, from that value. -/
theorem exists_fall {first : ℕ} {rest : List ℕ} (hlast : rest.getLastD first < first)
    (hdropped : dropped (first :: rest) = first) : ∃ n fallen later,
      rest = List.replicate n first ++ fallen :: later ∧ fallen < first ∧ (fallen :: later).IsChain (· ≤ ·) := by
  induction rest with
  | nil => exact absurd hlast (lt_irrefl first)
  | cons b rest ih =>
    rw [List.getLastD_cons] at hlast
    rw [dropped_cons_cons] at hdropped
    rcases Nat.lt_trichotomy b first with hb | rfl | hb
    · rw [if_neg (by omega)] at hdropped
      exact ⟨0, b, rest, rfl, hb, dropped_eq_zero.mp (by omega)⟩
    · rw [if_pos le_rfl, Nat.zero_add] at hdropped
      obtain ⟨n, fallen, later, rfl, hfallen, hlater⟩ := ih hlast hdropped
      exact ⟨n + 1, fallen, later, rfl, hfallen, hlater⟩
    · -- the counter rose above its first value before it fell
      rw [if_pos hb.le, Nat.zero_add] at hdropped
      have hmore : b ≤ dropped (b :: rest) := le_dropped (by omega)
      omega

/-- **The stretches whose first and last value tell what was dropped.** -/
theorem kept_iff {previous first : ℕ} {rest : List ℕ} : Kept previous (first :: rest) ↔
    dropped (previous :: first :: rest) = if first ≤ rest.getLastD first then 0 else first := by
  unfold Kept
  constructor
  · rintro (hrising | ⟨hprevious, n, fallen, later, rfl, hfallen, hlater, hlast⟩)
    · have hzero := dropped_eq_zero.mpr hrising
      have hinside := dropped_eq_zero.mpr (List.isChain_cons_cons.mp hrising).2
      have hle : first ≤ rest.getLastD first := by
        by_contra hlt
        have hfell := le_dropped (Nat.lt_of_not_le hlt)
        omega
      rw [hzero, if_pos hle]
    · rw [getLastD_append_cons, if_neg (by omega), dropped_cons_cons, if_pos hprevious, dropped_replicate,
        dropped_cons_cons, if_neg (by omega), dropped_eq_zero.mpr hlater]
      omega
  · intro h
    by_cases hle : first ≤ rest.getLastD first
    · rw [if_pos hle] at h
      exact Or.inl (dropped_eq_zero.mp h)
    · rw [if_neg hle] at h
      have hfell := le_dropped (Nat.lt_of_not_le hle)
      rw [dropped_cons_cons] at h
      have hprevious : previous ≤ first := by
        by_contra hnot
        rw [if_neg hnot] at h
        omega
      rw [if_pos hprevious, Nat.zero_add] at h
      obtain ⟨n, fallen, later, rfl, hfallen, hlater⟩ := exists_fall (Nat.lt_of_not_le hle) h
      rw [getLastD_append_cons] at hle
      exact Or.inr ⟨hprevious, n, fallen, later, rfl, hfallen, hlater, by omega⟩

end PowerMonitor.Lib.Odometer
