import PowerMonitor.Lib.Binary

/-! # Lines

A byte string is its complete lines, each with its newline, and an unterminated rest. What is written
after the rest completes it (`lines_append`); from the start of a line, the lines are the later ones
(`lines_drop`). -/

namespace PowerMonitor.Lib.Lines

open PowerMonitor.Lib.Binary

/-- The complete lines of a byte string and what follows them. -/
def splitLines : Bytes → List Bytes × Bytes
  | [] => ([], [])
  | b :: bs =>
    let (ls, rest) := splitLines bs
    if b = 10 then ([10] :: ls, rest)
    else
      match ls with
      | [] => ([], b :: rest)
      | l :: ls => ((b :: l) :: ls, rest)

/-- The complete lines. -/
def lines (s : Bytes) : List Bytes := (splitLines s).1

/-- The unterminated rest. -/
def unterminated (s : Bytes) : Bytes := (splitLines s).2

theorem lines_nil : lines [] = [] := rfl

theorem unterminated_nil : unterminated [] = [] := rfl

theorem lines_newline (bs : Bytes) : lines (10 :: bs) = [10] :: lines bs := rfl

theorem unterminated_newline (bs : Bytes) : unterminated (10 :: bs) = unterminated bs := rfl

theorem splitLines_cons {b : UInt8} (hb : b ≠ 10) (bs : Bytes) :
    (lines bs = [] ∧ lines (b :: bs) = [] ∧ unterminated (b :: bs) = b :: unterminated bs) ∨
      ∃ l ls, lines bs = l :: ls ∧ lines (b :: bs) = (b :: l) :: ls ∧
        unterminated (b :: bs) = unterminated bs := by
  unfold lines unterminated
  simp only [splitLines, if_neg hb]
  cases h : (splitLines bs).1 with
  | nil => exact Or.inl ⟨rfl, rfl, rfl⟩
  | cons l ls => exact Or.inr ⟨l, ls, rfl, rfl, rfl⟩

/-- Nothing is lost. -/
theorem flatten_lines (s : Bytes) : (lines s).flatten ++ unterminated s = s := by
  induction s with
  | nil => rfl
  | cons b bs ih =>
    by_cases hb : b = 10
    · subst hb
      rw [lines_newline, unterminated_newline, List.flatten_cons, List.append_assoc, ih]
      rfl
    · rcases splitLines_cons hb bs with ⟨h, h1, h2⟩ | ⟨l, ls, h, h1, h2⟩
      · rw [h1, h2]; rw [h] at ih; simpa using ih
      · rw [h1, h2]; rw [h] at ih; simpa using ih

theorem newline_notMem_unterminated (s : Bytes) : (10 : UInt8) ∉ unterminated s := by
  induction s with
  | nil => simp [unterminated_nil]
  | cons b bs ih =>
    by_cases hb : b = 10
    · subst hb; rwa [unterminated_newline]
    · rcases splitLines_cons hb bs with ⟨-, -, h2⟩ | ⟨l, ls, -, -, h2⟩
      · rw [h2, List.mem_cons, not_or]; exact ⟨fun h => hb h.symm, ih⟩
      · rwa [h2]

/-- A line ends with its only newline. -/
theorem mem_lines {s l : Bytes} (h : l ∈ lines s) : ∃ init, l = init ++ [10] ∧ (10 : UInt8) ∉ init := by
  induction s generalizing l with
  | nil => simp [lines_nil] at h
  | cons b bs ih =>
    by_cases hb : b = 10
    · subst hb
      rw [lines_newline, List.mem_cons] at h
      rcases h with rfl | h
      · exact ⟨[], rfl, by simp⟩
      · exact ih h
    · rcases splitLines_cons hb bs with ⟨-, h1, -⟩ | ⟨l', ls, hl, h1, -⟩
      · rw [h1] at h; cases h
      · rw [h1, List.mem_cons] at h
        rcases h with rfl | h
        · obtain ⟨init, rfl, hn⟩ := ih (l := l') (by rw [hl]; simp)
          exact ⟨b :: init, rfl, by rw [List.mem_cons, not_or]; exact ⟨fun h => hb h.symm, hn⟩⟩
        · exact ih (by rw [hl]; simp [h])

/-- A text without a newline is all unterminated. -/
theorem lines_of_notMem {s : Bytes} (h : (10 : UInt8) ∉ s) : lines s = [] ∧ unterminated s = s := by
  induction s with
  | nil => exact ⟨rfl, rfl⟩
  | cons b bs ih =>
    rw [List.mem_cons, not_or] at h
    obtain ⟨h1, h2⟩ := ih h.2
    rcases splitLines_cons (fun hb => h.1 hb.symm) bs with ⟨-, h3, h4⟩ | ⟨l, ls, hl, -, -⟩
    · rw [h3, h4, h2]; exact ⟨rfl, rfl⟩
    · rw [h1] at hl; cases hl

/-- The first line of a text that starts with a complete one. -/
theorem lines_line {init : Bytes} (h : (10 : UInt8) ∉ init) (s : Bytes) :
    lines (init ++ 10 :: s) = (init ++ [10]) :: lines s ∧
      unterminated (init ++ 10 :: s) = unterminated s := by
  induction init with
  | nil => exact ⟨lines_newline s, unterminated_newline s⟩
  | cons b init ih =>
    rw [List.mem_cons, not_or] at h
    obtain ⟨h1, h2⟩ := ih h.2
    rcases splitLines_cons (fun hb => h.1 hb.symm) (init ++ 10 :: s) with ⟨hl, -, -⟩ | ⟨l, ls, hl, h3, h4⟩
    · rw [h1] at hl; cases hl
    · rw [h1] at hl
      obtain ⟨rfl, rfl⟩ := List.cons.inj hl
      exact ⟨by rw [List.cons_append, h3]; rfl, by rw [List.cons_append, h4, h2]⟩

/-- **What is written after the rest completes it.** -/
theorem lines_append (s t : Bytes) :
    lines (s ++ t) = lines s ++ lines (unterminated s ++ t) ∧
      unterminated (s ++ t) = unterminated (unterminated s ++ t) := by
  induction s with
  | nil => exact ⟨rfl, rfl⟩
  | cons b bs ih =>
    by_cases hb : b = 10
    · subst hb
      rw [List.cons_append, lines_newline, lines_newline, unterminated_newline, unterminated_newline,
        ih.1, ih.2]
      exact ⟨rfl, rfl⟩
    · rcases splitLines_cons hb bs with ⟨hl, h1, h2⟩ | ⟨l, ls, hl, h1, h2⟩
      · rw [h1, h2, List.nil_append]
        have hbs : unterminated bs = bs := by
          have := flatten_lines bs
          rw [hl] at this
          exact this
        rw [hbs]
        exact ⟨rfl, rfl⟩
      · rw [h1, h2, List.cons_append]
        rcases splitLines_cons hb (bs ++ t) with ⟨hl', -, -⟩ | ⟨l', ls', hl', h1', h2'⟩
        · rw [ih.1, hl] at hl'; cases hl'
        · rw [ih.1, hl, List.cons_append] at hl'
          obtain ⟨rfl, rfl⟩ := List.cons.inj hl'
          exact ⟨by rw [h1', List.cons_append], by rw [h2', ih.2]⟩

/-- The lines of a beginning are the first lines. -/
theorem lines_prefix {s t : Bytes} (h : s <+: t) : lines s <+: lines t := by
  obtain ⟨rest, rfl⟩ := h
  rw [(lines_append s rest).1]
  exact List.prefix_append ..

/-- Complete lines are the lines of their concatenation. -/
theorem lines_flatten (ls : List Bytes) (h : ∀ l ∈ ls, ∃ init, l = init ++ [10] ∧ (10 : UInt8) ∉ init)
    (s : Bytes) : lines (ls.flatten ++ s) = ls ++ lines s ∧ unterminated (ls.flatten ++ s) = unterminated s := by
  induction ls with
  | nil => exact ⟨rfl, rfl⟩
  | cons l ls ih =>
    obtain ⟨init, rfl, hn⟩ := h l (by simp)
    obtain ⟨h1, h2⟩ := ih fun l hl => h l (by simp [hl])
    have he : ((init ++ [10]) :: ls).flatten ++ s = init ++ 10 :: (ls.flatten ++ s) := by simp
    obtain ⟨h3, h4⟩ := lines_line hn (ls.flatten ++ s)
    exact ⟨by rw [he, h3, h1, List.cons_append], by rw [he, h4, h2]⟩

/-- **From the start of a line**, the lines are the later ones. -/
theorem lines_drop (s : Bytes) (k : ℕ) :
    lines (s.drop ((lines s).take k).flatten.length) = (lines s).drop k ∧
      unterminated (s.drop ((lines s).take k).flatten.length) = unterminated s := by
  have hs : s = ((lines s).take k).flatten ++ (((lines s).drop k).flatten ++ unterminated s) := by
    rw [← List.append_assoc, ← List.flatten_append, List.take_append_drop, flatten_lines]
  have hd : s.drop ((lines s).take k).flatten.length = ((lines s).drop k).flatten ++ unterminated s := by
    conv_lhs => arg 2; rw [hs]
    exact List.drop_left
  rw [hd]
  obtain ⟨h1, h2⟩ := lines_flatten ((lines s).drop k)
    (fun l hl => mem_lines (List.mem_of_mem_drop hl)) (unterminated s)
  obtain ⟨h3, h4⟩ := lines_of_notMem (newline_notMem_unterminated s)
  rw [h1, h2, h3, h4, List.append_nil]
  exact ⟨rfl, rfl⟩

/-- From any offset, what is left starts with one of the parts, or in the middle of one. -/
theorem drop_flatten {α : Type} (ls : List (List α)) (offset : ℕ) :
    (∃ k, ls.flatten.drop offset = (ls.drop k).flatten) ∨
      ∃ k l t, ls[k]? = some l ∧ t <:+ l ∧ t ≠ l ∧ t ≠ [] ∧ ls.flatten.drop offset = t ++ (ls.drop (k + 1)).flatten := by
  induction ls generalizing offset with
  | nil => exact Or.inl ⟨0, by simp⟩
  | cons l ls ih =>
    rcases Nat.lt_or_ge offset l.length with hlt | hge
    · rcases Nat.eq_zero_or_pos offset with rfl | hpositive
      · exact Or.inl ⟨0, rfl⟩
      · refine Or.inr ⟨0, l, l.drop offset, rfl, List.drop_suffix _ _, fun h => ?_, fun h => ?_, ?_⟩
        · have hlength := congrArg List.length h
          rw [List.length_drop] at hlength
          omega
        · have hlength := congrArg List.length h
          rw [List.length_drop, List.length_nil] at hlength
          omega
        · rw [List.flatten_cons, List.drop_append_of_le_length (Nat.le_of_lt hlt)]
          rfl
    · have hdrop : (l :: ls).flatten.drop offset = ls.flatten.drop (offset - l.length) := by
        rw [List.flatten_cons, List.drop_append, List.drop_eq_nil_of_le hge, List.nil_append]
      rw [hdrop]
      rcases ih (offset - l.length) with ⟨k, hk⟩ | ⟨k, l', t, hl', hsuffix, hne, hnil, hk⟩
      · exact Or.inl ⟨k + 1, hk⟩
      · exact Or.inr ⟨k + 1, l', t, hl', hsuffix, hne, hnil, hk⟩

end PowerMonitor.Lib.Lines
