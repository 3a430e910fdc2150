import Mathlib.Data.List.TakeWhile

/-! # Delimited text

A text is cut at the first occurrence of a delimiter. What stands before the cut has no delimiter, so
that the cut undoes putting a delimiter between two texts of which the first has none
(`cutAt_append`), and such a pair of texts is determined by the text they give (`append_cons_inj`). -/

namespace PowerMonitor.Lib.Delimited

variable {α : Type} [BEq α] [LawfulBEq α]

/-- The text before the first `c`, and the text after it, if `c` occurs. -/
def cutAt (c : α) (value : List α) : List α × Option (List α) :=
  let head := value.takeWhile (· != c)
  (head, if head.length < value.length then some (value.drop (head.length + 1)) else none)

theorem takeWhile_append {c : α} {s : List α} (h : c ∉ s) (t : List α) :
    (s ++ c :: t).takeWhile (· != c) = s := by
  induction s with
  | nil => simp
  | cons b s ih =>
    rw [List.mem_cons, not_or] at h
    have hb : (b != c) = true := bne_iff_ne.mpr fun he => h.1 he.symm
    rw [List.cons_append, List.takeWhile_cons, if_pos hb, ih h.2]

/-- **The cut undoes the delimiter.** -/
theorem cutAt_append {c : α} {s : List α} (h : c ∉ s) (t : List α) : cutAt c (s ++ c :: t) = (s, some t) := by
  simp [cutAt, takeWhile_append h]

theorem cutAt_of_notMem {c : α} {s : List α} (h : c ∉ s) : cutAt c s = (s, none) := by
  have hs : s.takeWhile (· != c) = s := by
    rw [List.takeWhile_eq_self_iff]
    exact fun b hb => bne_iff_ne.mpr fun he => h (he ▸ hb)
  simp [cutAt, hs]

/-- A text has no delimiter, or is cut at its first one. -/
theorem cutAt_cases (c : α) (s : List α) :
    (c ∉ s ∧ cutAt c s = (s, none)) ∨
      ∃ head tail, c ∉ head ∧ s = head ++ c :: tail ∧ cutAt c s = (head, some tail) := by
  by_cases h : c ∈ s
  · obtain ⟨head, tail, rfl, hhead⟩ := List.eq_append_cons_of_mem h
    exact Or.inr ⟨head, tail, hhead, rfl, cutAt_append hhead tail⟩
  · exact Or.inl ⟨h, cutAt_of_notMem h⟩

theorem notMem_cutAt_fst (c : α) (s : List α) : c ∉ (cutAt c s).1 := by
  rcases cutAt_cases c s with ⟨h, hcut⟩ | ⟨head, tail, h, -, hcut⟩
  · rwa [hcut]
  · rwa [hcut]

omit [LawfulBEq α] in
/-- The part before the cut is a start of the text. -/
theorem cutAt_fst_initial (c : α) (s : List α) : (cutAt c s).1 <+: s := List.takeWhile_prefix _

/-- **A text without the delimiter, then the delimiter, then any text**: the two are determined. -/
theorem append_cons_inj {c : α} {s s' t t' : List α} (h : c ∉ s) (h' : c ∉ s') (he : s ++ c :: t = s' ++ c :: t') :
    s = s' ∧ t = t' := by
  have hcut := congrArg (cutAt c) he
  rw [cutAt_append h, cutAt_append h', Prod.mk.injEq, Option.some.injEq] at hcut
  exact hcut

/-! ### The last delimiter -/

/-- The text before the last `c`, and the text after it, if `c` occurs. -/
def cutLast (c : α) (value : List α) : List α × Option (List α) :=
  match cutAt c value.reverse with
  | (tail, some head) => (head.reverse, some tail.reverse)
  | (_, none) => (value, none)

theorem cutLast_append {c : α} {t : List α} (h : c ∉ t) (s : List α) : cutLast c (s ++ c :: t) = (s, some t) := by
  have hreverse : (s ++ c :: t).reverse = t.reverse ++ c :: s.reverse := by simp
  unfold cutLast
  rw [hreverse, cutAt_append (by rwa [List.mem_reverse])]
  simp

theorem cutLast_of_notMem {c : α} {s : List α} (h : c ∉ s) : cutLast c s = (s, none) := by
  unfold cutLast
  rw [cutAt_of_notMem (by rwa [List.mem_reverse])]

/-- A text has no delimiter, or is cut at its last one. -/
theorem cutLast_cases (c : α) (s : List α) :
    (c ∉ s ∧ cutLast c s = (s, none)) ∨
      ∃ head tail, c ∉ tail ∧ s = head ++ c :: tail ∧ cutLast c s = (head, some tail) := by
  rcases cutAt_cases c s.reverse with ⟨h, -⟩ | ⟨tail, head, htail, hreverse, -⟩
  · rw [List.mem_reverse] at h
    exact Or.inl ⟨h, cutLast_of_notMem h⟩
  · obtain rfl : s = head.reverse ++ c :: tail.reverse := by
      rw [← List.reverse_reverse s, hreverse]
      simp
    rw [← List.mem_reverse] at htail
    exact Or.inr ⟨head.reverse, tail.reverse, htail, rfl, cutLast_append htail _⟩

/-! ### Joined texts -/

omit [BEq α] [LawfulBEq α] in
theorem mem_of_mem_intercalate {b c : α} {texts : List (List α)} (h : b ∈ [c].intercalate texts) :
    b = c ∨ ∃ text ∈ texts, b ∈ text := by
  induction texts with
  | nil => simp at h
  | cons text texts ih =>
    cases texts with
    | nil => exact Or.inr ⟨text, by simp, by simpa using h⟩
    | cons next texts =>
      rw [List.intercalate_cons_cons, List.mem_append, List.mem_append, List.mem_singleton] at h
      rcases h with (h | h) | h
      · exact Or.inr ⟨text, by simp, h⟩
      · exact Or.inl h
      · rcases ih h with h | ⟨later, hlater, h⟩
        · exact Or.inl h
        · exact Or.inr ⟨later, by simp [hlater], h⟩

omit [BEq α] [LawfulBEq α] in
theorem intercalate_concat (c : α) {texts : List (List α)} (h : texts ≠ []) (text : List α) :
    [c].intercalate (texts ++ [text]) = [c].intercalate texts ++ c :: text := by
  induction texts with
  | nil => exact absurd rfl h
  | cons first texts ih =>
    cases texts with
    | nil => simp
    | cons next texts =>
      rw [List.cons_append, List.cons_append, List.intercalate_cons_cons, List.intercalate_cons_cons,
        ← List.cons_append, ih (by simp)]
      simp

/-- The last text of a split is not empty, if the text is not empty and does not end with the delimiter. -/
theorem getLast?_splitOn_ne {c : α} {s : List α} (hne : s ≠ []) (hlast : s.getLast? ≠ some c) :
    (s.splitOn c).getLast? ≠ some [] := fun h => by
  obtain ⟨init, hinit⟩ := List.getLast?_eq_some_iff.mp h
  have hs : [c].intercalate (s.splitOn c) = s := List.intercalate_splitOn c
  rw [hinit] at hs
  by_cases hnil : init = []
  · rw [hnil] at hs
    exact hne (by simpa using hs.symm)
  · rw [intercalate_concat c hnil] at hs
    exact hlast (by rw [← hs]; simp)

end PowerMonitor.Lib.Delimited
