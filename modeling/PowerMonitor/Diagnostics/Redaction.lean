import Mathlib.Data.List.Infix
import PowerMonitor.Lib.JsonGrammar

/-! # Redaction of what is logged

A line of the log is scanned for assignments, `key=value` or `"key": value`, and the value of a sensitive key is
replaced. The scanner does not know JSON: it looks for an assignment behind every delimiter, also inside a string, and
skips a quoted value to its closing quote.

* `redactLoop_scan`: a buffer cuts the line and does nothing else.
* `scan_member`: the value of a member of a JSON object is skipped whole.
* `redaction_iff`: when it does not matter which value a sensitive member has. -/

namespace PowerMonitor.Diagnostics.Redaction

open PowerMonitor.Lib.Binary PowerMonitor.Lib.JsonGrammar

/-! ### Assignments -/

def blank (b : UInt8) : Bool := b = 32 || b = 9

def tokenDelimiter (value : UInt8) : Bool :=
  value = 32 || value = 9 || value = 13 || value = 10 || value = 38 || value = 44 || value = 59 || value = 123 ||
    value = 91 || value = 125 || value = 93

def isQuote (b : UInt8) : Bool := b = 34 || b = 39

/-- A byte of a key. -/
def keyByte (quote : Option UInt8) (b : UInt8) : Bool :=
  b ≠ 61 && b ≠ 58 && !blank b && quote ≠ some b && !tokenDelimiter b

/-- A key, the text up to the separator and with it, and the text behind it. -/
structure Assignment where
  key : Bytes
  upTo : Bytes
  behind : Bytes
  deriving DecidableEq, Repr

/-- An assignment may start at the beginning, at a delimiter and behind one. -/
def mayStart (previous : Option UInt8) (input : Bytes) : Bool :=
  match input, previous with
  | [], _ => false
  | _ :: _, none => true
  | b :: _, some p => tokenDelimiter b || tokenDelimiter p

/-- What follows the closing quote of a key. -/
def unquoted (quote : Option UInt8) (input : Bytes) : Option Bytes :=
  match quote, input with
  | none, _ => some input
  | some _, [] => none
  | some q, b :: rest => if b = q then some rest else none

/-- The assignment that starts at a place, given the byte before it. -/
def findAssignment (previous : Option UInt8) (input : Bytes) : Option Assignment :=
  if !mayStart previous input then none
  else
    let cursor := input.dropWhile blank
    let quote := cursor.head?.filter isQuote
    let body := cursor.drop quote.toList.length
    let key := body.takeWhile (keyByte quote)
    match unquoted quote (body.dropWhile (keyByte quote)) with
    | none => none
    | some rest =>
      match rest.dropWhile blank with
      | [] => none
      | separator :: behind =>
        if key = [] ∨ (separator ≠ 61 ∧ separator ≠ 58) then none
        else some {
          key := key
          upTo := input.takeWhile blank ++ (quote.toList ++ (key ++ (quote.toList ++ (rest.takeWhile blank ++ [separator]))))
          behind := behind }

def assignmentStartsAfter (previous : Option UInt8) (input : Bytes) : Bool := (findAssignment previous input).isSome

/-- `std::tolower`. -/
def lower (b : UInt8) : UInt8 := if 65 ≤ b ∧ b ≤ 90 then b + 32 else b

def sensitive : List Bytes :=
  ["password", "passwd", "secret", "token", "authorization", "cookie", "signature", "private_key", "api_key", "session",
    "credential", "csrf"].map ascii

def sensitiveKey (key : Bytes) : Bool := sensitive.any fun item => decide (item <:+: key.map lower)

/-- The assignment at a place, if its key is sensitive; the key is cut to 63 bytes. -/
def sensitiveAssignment (previous : Option UInt8) (input : Bytes) : Option Assignment :=
  (findAssignment previous input).filter fun a => sensitiveKey (a.key.take 63)

/-! ### Values -/

/-- What follows the closing quote of a value. -/
def skipQuoted (quote : UInt8) : Bool → Bytes → Bytes
  | _, [] => []
  | escaped, b :: rest => if !escaped && b = quote then rest else skipQuoted quote (!escaped && b = 92) rest

/-- A byte that ends a value without quotes. -/
def endsValue (b : UInt8) : Bool := b = 38 || b = 44 || b = 59 || b = 13 || b = 10 || b = 125 || b = 93

/-- What follows a value without quotes, and the byte before it. -/
def skipUnquoted (previous : Option UInt8) : Bytes → Option UInt8 × Bytes
  | [] => (previous, [])
  | b :: rest =>
    if endsValue b || (blank b && assignmentStartsAfter previous (b :: rest)) then (previous, b :: rest)
    else skipUnquoted (some b) rest

/-- What follows the value of an assignment, and the byte before it. -/
def skipValue (a : Assignment) : Option UInt8 × Bytes :=
  match a.behind.dropWhile blank with
  | [] => (none, [])
  | b :: rest =>
    if isQuote b then (some b, skipQuoted b false rest)
    else skipUnquoted (a.upTo ++ a.behind.takeWhile blank).getLast? (b :: rest)

/-- The text that stands for a value. -/
def redacted : Bytes := ascii "[REDACTED]"

theorem skipQuoted_le (quote : UInt8) (escaped : Bool) (input : Bytes) :
    (skipQuoted quote escaped input).length ≤ input.length := by
  induction input generalizing escaped with
  | nil => exact le_rfl
  | cons b rest ih =>
    rw [skipQuoted]
    split_ifs
    · exact Nat.le_succ _
    · exact (ih _).trans (Nat.le_succ _)

theorem skipUnquoted_le (previous : Option UInt8) (input : Bytes) :
    (skipUnquoted previous input).2.length ≤ input.length := by
  induction input generalizing previous with
  | nil => exact le_rfl
  | cons b rest ih =>
    rw [skipUnquoted]
    split_ifs
    · exact le_rfl
    · exact (ih _).trans (Nat.le_succ _)

theorem skipValue_le (a : Assignment) : (skipValue a).2.length ≤ a.behind.length := by
  have hdrop := (List.dropWhile_suffix blank (l := a.behind)).length_le
  unfold skipValue
  cases hcursor : a.behind.dropWhile blank with
  | nil => exact Nat.zero_le _
  | cons b rest =>
    rw [hcursor] at hdrop
    simp only
    split_ifs
    · exact (skipQuoted_le b false rest).trans ((Nat.le_succ _).trans hdrop)
    · exact (skipUnquoted_le _ _).trans hdrop

theorem quote_drop (cursor : Bytes) :
    (cursor.head?.filter isQuote).toList ++ cursor.drop (cursor.head?.filter isQuote).toList.length = cursor := by
  cases cursor with
  | nil => rfl
  | cons b rest =>
    rw [List.head?_cons, Option.filter_some]
    split_ifs <;> rfl

theorem unquoted_append {quote : Option UInt8} {input rest : Bytes} (h : unquoted quote input = some rest) :
    quote.toList ++ rest = input := by
  cases quote with
  | none => exact Option.some.inj h.symm
  | some q =>
    cases input with
    | nil => cases h
    | cons b input =>
      rw [unquoted] at h
      split_ifs at h with hb
      rw [hb, Option.some.inj h]
      rfl

/-- An assignment is a part of the text. -/
theorem findAssignment_append {previous : Option UInt8} {input : Bytes} {a : Assignment}
    (h : findAssignment previous input = some a) : a.upTo ++ a.behind = input ∧ a.upTo ≠ [] := by
  unfold findAssignment at h
  split_ifs at h
  simp only at h
  have hcursor := quote_drop (input.dropWhile blank)
  generalize hquote : (input.dropWhile blank).head?.filter isQuote = quote at h hcursor
  generalize hbody : (input.dropWhile blank).drop quote.toList.length = body at h hcursor
  cases hclosed : unquoted quote (body.dropWhile (keyByte quote)) with
  | none =>
    rw [hclosed] at h
    cases h
  | some rest =>
    rw [hclosed] at h
    simp only at h
    cases hrest : rest.dropWhile blank with
    | nil =>
      rw [hrest] at h
      cases h
    | cons separator behind =>
      rw [hrest] at h
      simp only at h
      split_ifs at h
      obtain rfl := Option.some.inj h
      refine ⟨?_, by simp⟩
      calc input.takeWhile blank ++ (quote.toList ++ (body.takeWhile (keyByte quote) ++ (quote.toList ++
            (rest.takeWhile blank ++ [separator])))) ++ behind
          = input.takeWhile blank ++ (quote.toList ++ (body.takeWhile (keyByte quote) ++ (quote.toList ++
            (rest.takeWhile blank ++ separator :: behind)))) := by simp
        _ = input.takeWhile blank ++ (quote.toList ++ (body.takeWhile (keyByte quote) ++ (quote.toList ++ rest))) := by
          rw [← hrest, List.takeWhile_append_dropWhile]
        _ = input.takeWhile blank ++ (quote.toList ++ body) := by
          rw [unquoted_append hclosed, List.takeWhile_append_dropWhile]
        _ = input := by rw [hcursor, List.takeWhile_append_dropWhile]

theorem sensitiveAssignment_lt {previous : Option UInt8} {input : Bytes} {a : Assignment}
    (h : sensitiveAssignment previous input = some a) : (skipValue a).2.length < input.length := by
  obtain ⟨hinput, hne⟩ := findAssignment_append (Option.filter_eq_some_iff.mp h).1
  have hpositive := List.length_pos_iff.mpr hne
  have hbehind := skipValue_le a
  rw [← hinput, List.length_append]
  omega

/-! ### The line -/

/-- The loop, with the room that is left in the buffer. When the room ends, so does the loop. -/
def redactLoop (room : ℕ) (previous : Option UInt8) (input : Bytes) : Bytes :=
  match room, input with
  | 0, _ => []
  | _ + 1, [] => []
  | room + 1, b :: rest =>
    match _hfound : sensitiveAssignment previous (b :: rest) with
    | none => b :: redactLoop room (some b) rest
    | some a =>
      let copied := a.upTo.take (room + 1)
      let mark := redacted.take (room + 1 - copied.length)
      copied ++ (mark ++ redactLoop (room + 1 - copied.length - mark.length) (skipValue a).1 (skipValue a).2)
termination_by input.length
decreasing_by
  · exact Nat.lt_succ_self _
  · exact sensitiveAssignment_lt _hfound

/-- The text that is logged, with its end mark left out. -/
def redactSensitiveAssignments (outputSize : ℕ) (input : Bytes) : Bytes := redactLoop (outputSize - 1) none input

/-- The line without a buffer. -/
def scan (previous : Option UInt8) (input : Bytes) : Bytes :=
  match input with
  | [] => []
  | b :: rest =>
    match _hfound : sensitiveAssignment previous (b :: rest) with
    | none => b :: scan (some b) rest
    | some a => a.upTo ++ (redacted ++ scan (skipValue a).1 (skipValue a).2)
termination_by input.length
decreasing_by
  · exact Nat.lt_succ_self _
  · exact sensitiveAssignment_lt _hfound

variable {previous : Option UInt8} {input rest : Bytes} {b : UInt8} {a : Assignment}

theorem scan_nil (previous : Option UInt8) : scan previous [] = [] := by rw [scan]

theorem scan_none (h : sensitiveAssignment previous (b :: rest) = none) :
    scan previous (b :: rest) = b :: scan (some b) rest := by
  rw [scan]
  split
  · rfl
  · next hfound => rw [h] at hfound; cases hfound

theorem scan_some (h : sensitiveAssignment previous (b :: rest) = some a) :
    scan previous (b :: rest) = a.upTo ++ (redacted ++ scan (skipValue a).1 (skipValue a).2) := by
  rw [scan]
  split
  · next hfound => rw [h] at hfound; cases hfound
  · next hfound => rw [h] at hfound; cases hfound; rfl

/-- **A buffer cuts the line** and does nothing else. -/
theorem redactLoop_scan (room : ℕ) (previous : Option UInt8) (input : Bytes) :
    redactLoop room previous input = (scan previous input).take room := by
  have hroom (room : ℕ) (l : Bytes) : room - (l.take room).length = room - l.length := by
    rw [List.length_take]
    omega
  induction room, previous, input using redactLoop.induct with
  | case1 previous input => rw [redactLoop, List.take_zero]
  | case2 previous room => rw [redactLoop, scan_nil, List.take_nil]
  | case3 previous room b rest hnone ih =>
    rw [redactLoop, scan_none hnone, List.take_succ_cons]
    split
    · rw [ih]
    · next hfound =>
      rw [hnone] at hfound
      cases hfound
  | case4 previous room b rest a hsome copied mark ih =>
    rw [redactLoop, scan_some hsome]
    split
    · next hfound =>
      rw [hsome] at hfound
      cases hfound
    · next hfound =>
      obtain rfl := Option.some.inj (hsome.symm.trans hfound)
      have hcopied : room + 1 - copied.length = room + 1 - a.upTo.length := hroom _ _
      have hmark : room + 1 - copied.length - mark.length = room + 1 - a.upTo.length - redacted.length := by
        rw [← hcopied]
        exact hroom _ _
      change copied ++ (mark ++ redactLoop (room + 1 - copied.length - mark.length) _ _) = _
      rw [ih, List.take_append, List.take_append, ← hmark, ← hcopied]

/-! ### A byte at which every search stops -/

/-- A delimiter that is not blank. -/
structure Stops (d : UInt8) : Prop where
  delimiter : tokenDelimiter d = true
  visible : blank d = false

variable {d : UInt8}

theorem Stops.plain (h : Stops d) : isQuote d = false ∧ d ≠ 61 ∧ d ≠ 58 ∧ d ≠ 92 :=
  bytes_forall (p := fun d => tokenDelimiter d = true → isQuote d = false ∧ d ≠ 61 ∧ d ≠ 58 ∧ d ≠ 92)
    (by decide +kernel) d h.delimiter

theorem Stops.keyByte (h : Stops d) (quote : Option UInt8) : keyByte quote d = false := by
  simp [Redaction.keyByte, h.delimiter]

theorem dropWhile_stop {p : UInt8 → Bool} (h : p d = false) (s tail : Bytes) :
    (s ++ d :: tail).dropWhile p = s.dropWhile p ++ d :: tail := by
  induction s with
  | nil => exact List.dropWhile_cons_of_neg (by simp [h])
  | cons b s ih =>
    rw [List.cons_append, List.dropWhile_cons, List.dropWhile_cons]
    split_ifs
    · exact ih
    · rfl

theorem takeWhile_stop {p : UInt8 → Bool} (h : p d = false) (s tail : Bytes) :
    (s ++ d :: tail).takeWhile p = s.takeWhile p := by
  induction s with
  | nil => exact List.takeWhile_cons_of_neg (by simp [h])
  | cons b s ih =>
    rw [List.cons_append, List.takeWhile_cons, List.takeWhile_cons, ih]

theorem unquoted_stop {quote : Option UInt8} (h : quote ≠ some d) (s : Bytes) :
    (∀ tail, unquoted quote (s ++ d :: tail) = none) ∨ ∃ s', ∀ tail, unquoted quote (s ++ d :: tail) = some (s' ++ d :: tail) := by
  cases quote with
  | none => exact Or.inr ⟨s, fun tail => rfl⟩
  | some q =>
    cases s with
    | nil => exact Or.inl fun tail => if_neg fun heq => h (by rw [heq])
    | cons b s =>
      by_cases hb : b = q
      · exact Or.inr ⟨s, fun tail => if_pos hb⟩
      · exact Or.inl fun tail => if_neg hb

/-- What is found before such a byte does not depend on what is behind it. -/
theorem findAssignment_stop (h : Stops d) (previous : Option UInt8) (s : Bytes) :
    (∀ tail, findAssignment previous (s ++ d :: tail) = none) ∨
      ∃ key upTo behind, upTo ++ behind = s ∧ upTo ≠ [] ∧
        ∀ tail, findAssignment previous (s ++ d :: tail) = some ⟨key, upTo, behind ++ d :: tail⟩ := by
  have hstart (tail : Bytes) : mayStart previous (s ++ d :: tail) = mayStart previous (s ++ [d]) := by
    cases s <;> cases previous <;> rfl
  have hquote (tail : Bytes) : (s.dropWhile blank ++ d :: tail).head?.filter isQuote =
      (s.dropWhile blank).head?.filter isQuote := by
    cases s.dropWhile blank with
    | nil => simp [h.plain.1]
    | cons b s => rfl
  have hbody (tail : Bytes) :
      (s.dropWhile blank ++ d :: tail).drop ((s.dropWhile blank).head?.filter isQuote).toList.length =
        (s.dropWhile blank).drop ((s.dropWhile blank).head?.filter isQuote).toList.length ++ d :: tail := by
    refine List.drop_append_of_le_length ?_
    have := congrArg List.length (quote_drop (s.dropWhile blank))
    rw [List.length_append] at this
    omega
  have hne : (s.dropWhile blank).head?.filter isQuote ≠ some d := fun heq =>
    absurd (Option.filter_eq_some_iff.mp heq).2 (by simp [h.plain.1])
  suffices hfound : (∀ tail, findAssignment previous (s ++ d :: tail) = none) ∨
      ∃ key upTo behind, ∀ tail, findAssignment previous (s ++ d :: tail) = some ⟨key, upTo, behind ++ d :: tail⟩ by
    rcases hfound with hnone | ⟨key, upTo, behind, hsome⟩
    · exact Or.inl hnone
    · obtain ⟨happend, hupTo⟩ := findAssignment_append (hsome [])
      rw [← List.append_assoc] at happend
      exact Or.inr ⟨key, upTo, behind, List.append_cancel_right happend, hupTo, hsome⟩
  simp only [findAssignment, hstart, dropWhile_stop h.visible, takeWhile_stop h.visible, hquote, hbody,
    dropWhile_stop (h.keyByte _), takeWhile_stop (h.keyByte _)]
  generalize (s.dropWhile blank).head?.filter isQuote = quote at hne
  generalize (s.dropWhile blank).drop quote.toList.length = body
  generalize mayStart previous (s ++ [d]) = may
  cases may with
  | false => exact Or.inl fun tail => rfl
  | true =>
    rcases unquoted_stop hne (body.dropWhile (keyByte quote)) with hnone | ⟨s', hclosed⟩
    · exact Or.inl fun tail => by rw [hnone]; rfl
    · simp only [hclosed, dropWhile_stop h.visible, takeWhile_stop h.visible]
      cases s'.dropWhile blank with
      | nil => exact Or.inl fun tail => by simp [h.plain.2.1, h.plain.2.2.1]
      | cons separator behind =>
        by_cases hrefused : body.takeWhile (keyByte quote) = [] ∨ (separator ≠ 61 ∧ separator ≠ 58)
        · refine Or.inl fun tail => ?_
          simp only [List.cons_append, hrefused, if_true, Bool.not_true, Bool.false_eq_true, if_false]
        · refine Or.inr ⟨body.takeWhile (keyByte quote), s.takeWhile blank ++ (quote.toList ++
            (body.takeWhile (keyByte quote) ++ (quote.toList ++ (s'.takeWhile blank ++ [separator])))), behind, fun tail => ?_⟩
          simp only [List.cons_append, hrefused, if_false, Bool.not_true, Bool.false_eq_true]

theorem sensitiveAssignment_stop (h : Stops d) (previous : Option UInt8) (s : Bytes) :
    (∀ tail, sensitiveAssignment previous (s ++ d :: tail) = none) ∨
      ∃ key upTo behind, upTo ++ behind = s ∧ upTo ≠ [] ∧
        ∀ tail, sensitiveAssignment previous (s ++ d :: tail) = some ⟨key, upTo, behind ++ d :: tail⟩ := by
  unfold sensitiveAssignment
  rcases findAssignment_stop h previous s with hnone | ⟨key, upTo, behind, happend, hne, hsome⟩
  · exact Or.inl fun tail => by rw [hnone]; rfl
  · simp only [hsome, Option.filter_some]
    by_cases hkey : sensitiveKey (key.take 63) = true
    · exact Or.inr ⟨key, upTo, behind, happend, hne, fun tail => if_pos hkey⟩
    · exact Or.inl fun tail => if_neg hkey

theorem sensitiveAssignment_delimiter (h : Stops d) (previous : Option UInt8) (tail : Bytes) :
    sensitiveAssignment previous (d :: tail) = none := by
  rcases sensitiveAssignment_stop h previous [] with hnone | ⟨_, upTo, behind, happend, hne, -⟩
  · exact hnone tail
  · exact absurd (List.append_eq_nil_iff.mp happend).1 hne

theorem scan_delimiter (h : Stops d) (previous : Option UInt8) (tail : Bytes) :
    scan previous (d :: tail) = d :: scan (some d) tail := scan_none (sensitiveAssignment_delimiter h previous tail)

/-- A value without quotes ends at such a byte, if not before. -/
theorem skipUnquoted_stop (h : Stops d) (hends : endsValue d = true) (previous : Option UInt8) (s : Bytes) :
    ∃ previous' s', s' <:+ s ∧ ∀ tail, skipUnquoted previous (s ++ d :: tail) = (previous', s' ++ d :: tail) := by
  induction s generalizing previous with
  | nil => exact ⟨previous, [], List.suffix_rfl, fun tail => by rw [List.nil_append, skipUnquoted, hends]; rfl⟩
  | cons b s ih =>
    have hafter (tail : Bytes) :
        assignmentStartsAfter previous (b :: s ++ d :: tail) = assignmentStartsAfter previous (b :: s ++ [d]) := by
      unfold assignmentStartsAfter
      rcases findAssignment_stop h previous (b :: s) with hnone | ⟨key, upTo, behind, -, -, hsome⟩
      · rw [hnone, hnone]
      · rw [hsome, hsome]; rfl
    by_cases hstop : (endsValue b || (blank b && assignmentStartsAfter previous (b :: s ++ [d]))) = true
    · refine ⟨previous, b :: s, List.suffix_rfl, fun tail => ?_⟩
      rw [List.cons_append, skipUnquoted, ← List.cons_append, hafter, if_pos hstop]
    · obtain ⟨previous', s', hsuffix, hskip⟩ := ih (some b)
      refine ⟨previous', s', hsuffix.trans (List.suffix_cons b s), fun tail => ?_⟩
      rw [List.cons_append, skipUnquoted, ← List.cons_append, hafter, if_neg hstop, hskip]

/-- Whether the closing quote is found. -/
def closes (quote : UInt8) : Bool → Bytes → Bool
  | _, [] => false
  | escaped, b :: rest => (!escaped && b = quote) || closes quote (!escaped && b = 92) rest

/-- A quoted value ends before such a byte, or goes on behind it. -/
theorem skipQuoted_stop (h : Stops d) {quote : UInt8} (hquote : isQuote quote = true) (escaped : Bool) (s : Bytes) :
    (∀ tail, closes quote escaped (s ++ d :: tail) = true) ∧
        (∃ s', s' <:+ s ∧ ∀ tail, skipQuoted quote escaped (s ++ d :: tail) = s' ++ d :: tail) ∨
      closes quote escaped (s ++ [d]) = false ∧
        ∀ tail, skipQuoted quote escaped (s ++ d :: tail) = skipQuoted quote false tail := by
  induction s generalizing escaped with
  | nil =>
    have hne : d ≠ quote := by
      rintro rfl
      rw [h.plain.1] at hquote
      cases hquote
    refine Or.inr ⟨?_, fun tail => ?_⟩
    · simp [closes, hne]
    · simp [skipQuoted, hne, h.plain.2.2.2]
  | cons b s ih =>
    by_cases hclosed : (!escaped && b = quote) = true
    · refine Or.inl ⟨fun tail => ?_, s, List.suffix_cons b s, fun tail => ?_⟩
      · rw [List.cons_append, closes, hclosed, Bool.true_or]
      · rw [List.cons_append, skipQuoted, if_pos hclosed]
    · have hopen := Bool.eq_false_iff.mpr hclosed
      simp only [List.cons_append, closes, skipQuoted, hopen, Bool.false_or, Bool.false_eq_true, if_false]
      rcases ih (!escaped && b = 92) with ⟨hcloses, s', hsuffix, hskip⟩ | hgoes
      · exact Or.inl ⟨hcloses, s', hsuffix.trans (List.suffix_cons b s), hskip⟩
      · exact Or.inr hgoes

/-! ### Where the line stands -/

/-- The quote of a value that does not end. -/
def openQuote (a : Assignment) : Option UInt8 :=
  match a.behind.dropWhile blank with
  | [] => none
  | b :: rest => if isQuote b && !closes b false rest then some b else none

/-- The quote of the skipped value in which a text ends, if it ends in one. -/
def insideQuote (previous : Option UInt8) (input : Bytes) : Option UInt8 :=
  match input with
  | [] => none
  | b :: rest =>
    match _hfound : sensitiveAssignment previous (b :: rest) with
    | none => insideQuote (some b) rest
    | some a => if (openQuote a).isSome then openQuote a else insideQuote (skipValue a).1 (skipValue a).2
termination_by input.length
decreasing_by
  · exact Nat.lt_succ_self _
  · exact sensitiveAssignment_lt _hfound

theorem insideQuote_none (h : sensitiveAssignment previous (b :: rest) = none) :
    insideQuote previous (b :: rest) = insideQuote (some b) rest := by
  rw [insideQuote]
  split
  · rfl
  · next hfound => rw [h] at hfound; cases hfound

theorem insideQuote_some (h : sensitiveAssignment previous (b :: rest) = some a) :
    insideQuote previous (b :: rest) =
      if (openQuote a).isSome then openQuote a else insideQuote (skipValue a).1 (skipValue a).2 := by
  rw [insideQuote]
  split
  · next hfound => rw [h] at hfound; cases hfound
  · next hfound => rw [h] at hfound; cases hfound; rfl

/-- How the rest of a line is scanned: from a place between assignments, or inside a quoted value. -/
def scanFrom (quote : Option UInt8) (previous : UInt8) (input : Bytes) : Bytes :=
  match quote with
  | none => scan (some previous) input
  | some q => scan (some q) (skipQuoted q false input)

/-- A value is open behind such a byte, or ends before it. -/
theorem skipValue_stop (h : Stops d) (hends : endsValue d = true) (key upTo behind : Bytes) :
    (∃ q, openQuote ⟨key, upTo, behind ++ [d]⟩ = some q ∧
        ∀ tail, skipValue ⟨key, upTo, behind ++ d :: tail⟩ = (some q, skipQuoted q false tail)) ∨
      openQuote ⟨key, upTo, behind ++ [d]⟩ = none ∧
        ∃ previous s, s <:+ behind ∧ ∀ tail, skipValue ⟨key, upTo, behind ++ d :: tail⟩ = (previous, s ++ d :: tail) := by
  simp only [skipValue, openQuote, dropWhile_stop h.visible, takeWhile_stop h.visible]
  have hcursor := List.dropWhile_suffix blank (l := behind)
  cases hdrop : behind.dropWhile blank with
  | nil =>
    refine Or.inr ⟨by simp [h.plain.1], (upTo ++ behind.takeWhile blank).getLast?, [], List.nil_suffix, fun tail => ?_⟩
    simp [h.plain.1, skipUnquoted, hends]
  | cons c rest =>
    rw [hdrop] at hcursor
    simp only [List.cons_append]
    by_cases hquote : isQuote c = true
    · simp only [hquote, Bool.true_and, if_true]
      rcases skipQuoted_stop h hquote false rest with ⟨hcloses, s, hsuffix, hskip⟩ | ⟨hopen, hskip⟩
      · refine Or.inr ⟨by simp [hcloses], some c, s, hsuffix.trans ((List.suffix_cons c rest).trans hcursor), fun tail => ?_⟩
        rw [hskip]
      · exact Or.inl ⟨c, by simp [hopen], fun tail => by rw [hskip]⟩
    · simp only [hquote, Bool.false_and, Bool.false_eq_true, if_false]
      obtain ⟨previous, s, hsuffix, hskip⟩ :=
        skipUnquoted_stop h hends (upTo ++ behind.takeWhile blank).getLast? (c :: rest)
      exact Or.inr ⟨trivial, previous, s, hsuffix.trans hcursor, hskip⟩

/-- **What stands before such a byte decides how the rest is scanned**, and is written alike. -/
theorem scan_before (h : Stops d) (previous : Option UInt8) (s : Bytes) (hends : s = [] ∨ endsValue d = true) :
    ∃ out, ∀ tail, scan previous (s ++ d :: tail) = out ++ scanFrom (insideQuote previous (s ++ [d])) d tail := by
  generalize hn : s.length = n
  induction n using Nat.strongRecOn generalizing previous s with
  | ind n ih =>
    cases s with
    | nil =>
      refine ⟨[d], fun tail => ?_⟩
      rw [List.nil_append, List.nil_append, scan_delimiter h, insideQuote_none (sensitiveAssignment_delimiter h _ _),
        insideQuote]
      rfl
    | cons b s =>
      have hend : endsValue d = true := hends.resolve_left (List.cons_ne_nil b s)
      rcases sensitiveAssignment_stop h previous (b :: s) with hnone | ⟨key, upTo, behind, happend, hne, hsome⟩
      · obtain ⟨out, hout⟩ := ih s.length (by rw [← hn]; exact Nat.lt_succ_self _) (some b) s (Or.inr hend) rfl
        have hfirst (tail : Bytes) : scan previous (b :: (s ++ d :: tail)) = b :: scan (some b) (s ++ d :: tail) :=
          scan_none (hnone tail)
        have hinside : insideQuote previous (b :: (s ++ [d])) = insideQuote (some b) (s ++ [d]) := insideQuote_none (hnone [])
        refine ⟨b :: out, fun tail => ?_⟩
        rw [List.cons_append, List.cons_append, List.cons_append, hfirst, hinside, hout]
      · have hlength := congrArg List.length happend
        have hpositive := List.length_pos_iff.mpr hne
        rw [List.length_append] at hlength
        have hfirst (tail : Bytes) : scan previous (b :: (s ++ d :: tail)) = _ := scan_some (hsome tail)
        have hinside : insideQuote previous (b :: (s ++ [d])) = _ := insideQuote_some (hsome [])
        rcases skipValue_stop h hend key upTo behind with ⟨q, hopen, hskip⟩ | ⟨hclosed, previous', s', hsuffix, hskip⟩
        · refine ⟨upTo ++ redacted, fun tail => ?_⟩
          rw [List.cons_append, hfirst, List.cons_append, hinside, hopen, hskip]
          simp [scanFrom]
        · obtain ⟨out, hout⟩ := ih s'.length (by have := hsuffix.length_le; omega) previous' s' (Or.inr hend) rfl
          refine ⟨upTo ++ (redacted ++ out), fun tail => ?_⟩
          rw [List.cons_append, hfirst, List.cons_append, hinside, hclosed, hskip, hskip, hout]
          simp

theorem isQuote_of_openQuote {q : UInt8} (h : openQuote a = some q) : isQuote q = true := by
  unfold openQuote at h
  split at h
  · cases h
  · split_ifs at h with hopen
    obtain rfl := Option.some.inj h
    exact (Bool.and_eq_true_iff.mp hopen).1

theorem isQuote_of_insideQuote {q : UInt8} (h : insideQuote previous input = some q) : isQuote q = true := by
  induction previous, input using insideQuote.induct with
  | case1 previous =>
    rw [insideQuote] at h
    cases h
  | case2 previous b rest hnone ih =>
    rw [insideQuote_none hnone] at h
    exact ih h
  | case3 previous b rest a hsome hopen =>
    rw [insideQuote_some hsome, if_pos hopen] at h
    exact isQuote_of_openQuote h
  | case4 previous b rest a hsome hopen ih =>
    rw [insideQuote_some hsome, if_neg hopen] at h
    exact ih h

/-! ### Objects -/

/-- A member of an object, as it is written between the quotes. -/
structure Member where
  name : Bytes
  value : Bytes
  named : Characters name
  valued : Characters value

def memberText (name value : Bytes) : Bytes := 34 :: (name ++ 34 :: 58 :: 34 :: (value ++ [34]))

/-- What stands before a member of a compact object, and what stands behind it. -/
def front (before : List Member) : Bytes := 123 :: before.flatMap fun m => memberText m.name m.value ++ [44]
def back (after : List Member) : Bytes := (after.flatMap fun m => 44 :: memberText m.name m.value) ++ [125]

/-- The object with a value for one of its members. -/
def objectWith (before : List Member) (name value : Bytes) (after : List Member) : Bytes :=
  front before ++ (memberText name value ++ back after)

theorem front_stop (before : List Member) :
    ∃ s d, front before = s ++ [d] ∧ Stops d ∧ (s = [] ∨ endsValue d = true) := by
  rcases before.eq_nil_or_concat with rfl | ⟨init, m, rfl⟩
  · exact ⟨[], 123, rfl, ⟨by decide, by decide⟩, Or.inl rfl⟩
  · refine ⟨123 :: ((init.flatMap fun m => memberText m.name m.value ++ [44]) ++ memberText m.name m.value), 44, ?_,
      ⟨by decide, by decide⟩, Or.inr (by decide)⟩
    simp [front]

theorem back_stop (after : List Member) : ∃ d t, back after = d :: t ∧ Stops d := by
  cases after with
  | nil => exact ⟨125, [], rfl, by decide, by decide⟩
  | cons m after => exact ⟨44, _, rfl, by decide, by decide⟩

/-! ### A value that is skipped -/

theorem skipQuoted_plain {q : UInt8} {s : Bytes} (h : ∀ b ∈ s, b ≠ q ∧ b ≠ 92) (t : Bytes) :
    skipQuoted q false (s ++ t) = skipQuoted q false t := by
  induction s with
  | nil => rfl
  | cons b s ih =>
    obtain ⟨hq, hb⟩ := h b (by simp)
    rw [List.cons_append, skipQuoted]
    simp only [hq, hb, decide_false, Bool.and_false, Bool.false_eq_true, if_false]
    exact ih fun b' hb' => h b' (by simp [hb'])

/-- An escape is passed over. -/
theorem skipQuoted_escape {q : UInt8} (hq : q ≠ 92) (c : UInt8) (t : Bytes) :
    skipQuoted q false (92 :: c :: t) = skipQuoted q false t := by
  simp [skipQuoted, hq.symm]

theorem isHex_plain (b : UInt8) : isHex b = true → b ≠ 34 ∧ b ≠ 92 :=
  bytes_forall (p := fun b => isHex b = true → b ≠ 34 ∧ b ≠ 92) (by decide +kernel) b

/-- **A string is skipped to its closing quote.** -/
theorem skipQuoted_characters {v : Bytes} (h : Characters v) (t : Bytes) : skipQuoted 34 false (v ++ 34 :: t) = t := by
  induction h with
  | nil => simp [skipQuoted]
  | @plain b s _ hquote hbackslash _ ih =>
    rw [List.cons_append, ← List.singleton_append, skipQuoted_plain (by simp [hquote, hbackslash]), ih]
  | short _ _ ih => rw [List.cons_append, List.cons_append, skipQuoted_escape (by decide), ih]
  | unicode _ hdigits _ ih =>
    rw [List.cons_append, List.cons_append, skipQuoted_escape (by decide), List.append_assoc,
      skipQuoted_plain fun b hb => isHex_plain b (hdigits b hb), ih]

/-- The assignment at a double quote behind a delimiter. -/
theorem findAssignment_quoted (h : Stops d) {key : Bytes} {c e : UInt8} (hkey : ∀ b ∈ key, keyByte (some 34) b = true)
    (hc : keyByte (some 34) c = false) (he : blank e = false) (behind : Bytes) :
    findAssignment (some d) (34 :: (key ++ c :: e :: behind)) =
      if c = 34 ∧ key ≠ [] ∧ (e = 61 ∨ e = 58) then some ⟨key, 34 :: (key ++ [34, e]), behind⟩ else none := by
  have hmay : mayStart (some d) (34 :: (key ++ c :: e :: behind)) = true := by simp [mayStart, h.delimiter]
  have hblank : (34 :: (key ++ c :: e :: behind)).dropWhile blank = 34 :: (key ++ c :: e :: behind) :=
    List.dropWhile_cons_of_neg (by decide)
  have hnone : (34 :: (key ++ c :: e :: behind)).takeWhile blank = [] := List.takeWhile_cons_of_neg (by decide)
  have htake : (key ++ c :: e :: behind).takeWhile (keyByte (some 34)) = key := by
    rw [takeWhile_stop hc, List.takeWhile_eq_self_iff.mpr hkey]
  have hdrop : (key ++ c :: e :: behind).dropWhile (keyByte (some 34)) = c :: e :: behind := by
    rw [dropWhile_stop hc, List.dropWhile_eq_nil_iff.mpr hkey, List.nil_append]
  have hquote : ((34 : UInt8) :: (key ++ c :: e :: behind)).head?.filter isQuote = some 34 := rfl
  have hbody : (34 :: (key ++ c :: e :: behind)).drop (some (34 : UInt8)).toList.length = key ++ c :: e :: behind := rfl
  have hlater : (e :: behind).dropWhile blank = e :: behind := List.dropWhile_cons_of_neg (by simp [he])
  have hlast : (e :: behind).takeWhile blank = [] := List.takeWhile_cons_of_neg (by simp [he])
  simp only [findAssignment, hmay, Bool.not_true, Bool.false_eq_true, if_false, hblank, hnone, hquote, hbody, htake,
    hdrop, unquoted]
  by_cases hclosed : c = 34
  · simp only [hclosed, if_true, hlater, hlast, true_and]
    by_cases hrefused : key = [] ∨ (e ≠ 61 ∧ e ≠ 58)
    · rw [if_pos hrefused, if_neg (by tauto)]
    · rw [if_neg hrefused, if_pos (by tauto)]
      rfl
  · simp [hclosed]

/-- **The value of a member is skipped whole**, if its name is a key. -/
theorem scan_member (h : Stops d) {name v : Bytes} (hname : name ≠ []) (hlength : name.length ≤ 63)
    (hsensitive : sensitiveKey name = true) (hkey : ∀ b ∈ name, keyByte (some 34) b = true) (hv : Characters v) (t : Bytes) :
    scan (some d) (memberText name v ++ t) = (34 :: (name ++ [34, 58])) ++ (redacted ++ scan (some 34) t) := by
  have hfound : sensitiveAssignment (some d) (34 :: (name ++ 34 :: 58 :: 34 :: (v ++ 34 :: t))) =
      some ⟨name, 34 :: (name ++ [34, 58]), 34 :: (v ++ 34 :: t)⟩ := by
    rw [sensitiveAssignment, findAssignment_quoted h hkey (by decide) (by decide), if_pos ⟨rfl, hname, Or.inr rfl⟩,
      Option.filter_some, List.take_of_length_le hlength, if_pos hsensitive]
  have hvalue : skipValue ⟨name, 34 :: (name ++ [34, 58]), 34 :: (v ++ 34 :: t)⟩ = (some 34, t) := by
    have hblank : (34 :: (v ++ 34 :: t)).dropWhile blank = 34 :: (v ++ 34 :: t) :=
      List.dropWhile_cons_of_neg (by decide)
    simp only [skipValue, hblank]
    rw [if_pos (by decide), skipQuoted_characters hv]
  have htext : memberText name v ++ t = 34 :: (name ++ 34 :: 58 :: 34 :: (v ++ 34 :: t)) := by simp [memberText]
  rw [htext, scan_some hfound, hvalue]

/-! ### A value that is shown -/

/-- A byte of a value comes through. -/
def Shows (f : UInt8 → Bytes) : Prop :=
  ∃ (out : Bytes) (more : UInt8 → Bytes), ∀ x, x = 97 ∨ x = 98 → f x = out ++ x :: more x

theorem Shows.append {f : UInt8 → Bytes} (h : Shows f) (s : Bytes) : Shows fun x => s ++ f x := by
  obtain ⟨out, more, hf⟩ := h
  exact ⟨s ++ out, more, fun x hx => by simp only [hf x hx, List.append_assoc]⟩

theorem Shows.cons {f : UInt8 → Bytes} (h : Shows f) (b : UInt8) : Shows fun x => b :: f x := h.append [b]

theorem Shows.congr {f g : UInt8 → Bytes} (h : Shows g) (heq : ∀ x, f x = g x) : Shows f := by
  obtain ⟨out, more, hg⟩ := h
  exact ⟨out, more, fun x hx => (heq x).trans (hg x hx)⟩

theorem Shows.ne {f : UInt8 → Bytes} (h : Shows f) : f 97 ≠ f 98 := by
  obtain ⟨out, more, hf⟩ := h
  rw [hf 97 (Or.inl rfl), hf 98 (Or.inr rfl)]
  intro heq
  exact absurd (List.cons.inj (List.append_cancel_left heq)).1 (by decide)

/-- A quote, a comma and a letter. -/
def probe (x : UInt8) : Bytes := [39, 44, x]

variable {after : List Member} {name s : Bytes}

/-- A byte behind another, none of them a delimiter, starts no assignment. -/
theorem scan_plain {p : UInt8} (hp : tokenDelimiter p = false) (hb : tokenDelimiter b = false) (t : Bytes) :
    scan (some p) (b :: t) = b :: scan (some b) t := by
  refine scan_none ?_
  have hmay : mayStart (some p) (b :: t) = false := by simp [mayStart, hp, hb]
  rw [sensitiveAssignment, findAssignment, hmay]
  rfl

/-- The letter behind the comma comes through. -/
theorem shows_comma (previous : Option UInt8) (after : List Member) :
    Shows fun x => scan previous (44 :: x :: 34 :: back after) := by
  obtain ⟨d, t, hback, hd⟩ := back_stop after
  refine ⟨[44], fun x => scan (some x) (34 :: back after), fun x hx => ?_⟩
  change scan previous (44 :: x :: 34 :: back after) = _
  rw [scan_delimiter ⟨by decide, by decide⟩, scan_none ?_]
  · rfl
  rw [hback]
  have hnone : findAssignment (some 44) (x :: 34 :: d :: t) = none := by
    have hplain : blank x = false ∧ isQuote x = false ∧ keyByte none x = true ∧ keyByte none 34 = true := by
      rcases hx with rfl | rfl <;> decide
    have hcursor : (x :: 34 :: d :: t).dropWhile blank = x :: 34 :: d :: t :=
      List.dropWhile_cons_of_neg (by simp [hplain.1])
    have hquote : (x :: 34 :: d :: t).head?.filter isQuote = none := by
      simp [hplain.2.1]
    have hdrop : (x :: 34 :: d :: t).dropWhile (keyByte none) = d :: t := by
      rw [List.dropWhile_cons_of_pos hplain.2.2.1, List.dropWhile_cons_of_pos hplain.2.2.2,
        List.dropWhile_cons_of_neg (by simp [hd.keyByte none])]
    have hlater : (d :: t).dropWhile blank = d :: t := List.dropWhile_cons_of_neg (by simp [hd.visible])
    simp only [findAssignment, hcursor, hquote, Option.toList_none, List.length_nil, List.drop_zero, unquoted, hdrop, hlater,
      hd.plain.2.1, hd.plain.2.2.1, ne_eq, not_false_eq_true, and_self, or_true, if_true, ite_self]
  rw [sensitiveAssignment, hnone]
  rfl

/-- The probe between assignments. -/
theorem shows_probe (after : List Member) : Shows fun x => scan (some 34) (probe x ++ 34 :: back after) := by
  refine ((shows_comma (some 39) after).cons 39).congr fun x => ?_
  exact scan_plain (by decide) (by decide) _

/-- What follows the name of a member with the probe. -/
def ending (after : List Member) (x : UInt8) : Bytes := 34 :: 58 :: 34 :: (probe x ++ 34 :: back after)

/-- Between assignments, in the name. -/
theorem shows_name {p : UInt8} (hp : tokenDelimiter p = false) (hs : ∀ b ∈ s, tokenDelimiter b = false)
    (after : List Member) : Shows fun x => scan (some p) (s ++ ending after x) := by
  induction s generalizing p with
  | nil =>
    refine (((shows_probe after).cons 34).cons 58 |>.cons 34).congr fun x => ?_
    rw [List.nil_append, ending, scan_plain hp (by decide), scan_plain (by decide) (by decide),
      scan_plain (by decide) (by decide)]
  | cons b s ih =>
    have hb := hs b (by simp)
    have hrest := (ih hb fun b' hb' => hs b' (by simp [hb'])).cons b
    simp only [List.cons_append, scan_plain hp hb]
    exact hrest

/-- In a quoted value that has not ended before the name. -/
theorem shows_quoted {q : UInt8} (hq : isQuote q = true) (hs : ∀ b ∈ s, tokenDelimiter b = false) (escaped : Bool)
    (after : List Member) : Shows fun x => scan (some q) (skipQuoted q escaped (s ++ ending after x)) := by
  have hquote : q = 34 ∨ q = 39 := by simpa [isQuote] using hq
  induction s generalizing escaped with
  | nil =>
    rcases hquote with rfl | rfl
    · cases escaped with
      | false =>
        refine (((shows_probe after).cons 34).cons 58).congr fun x => ?_
        rw [List.nil_append, ending, skipQuoted, if_pos (by decide), scan_plain (by decide) (by decide),
          scan_plain (by decide) (by decide)]
      | true =>
        refine (shows_probe after).congr fun x => ?_
        rw [List.nil_append, ending, skipQuoted, if_neg (by decide), skipQuoted, if_neg (by decide), skipQuoted,
          if_pos (by decide)]
    · refine (shows_comma (some 39) after).congr fun x => ?_
      rw [List.nil_append, ending, probe, skipQuoted, if_neg (by simp), skipQuoted, if_neg (by simp), skipQuoted,
        if_neg (by simp), List.cons_append, skipQuoted, if_pos (by simp)]
      rfl
  | cons b s ih =>
    have hrest : ∀ b' ∈ s, tokenDelimiter b' = false := fun b' hb' => hs b' (by simp [hb'])
    simp only [List.cons_append, skipQuoted]
    by_cases hclosed : (!escaped && b = q) = true
    · simp only [hclosed, if_true]
      exact shows_name (by rcases hquote with rfl | rfl <;> decide) hrest after
    · simp only [hclosed, Bool.false_eq_true, if_false]
      exact ih hrest _

theorem goesOn (b : UInt8) : tokenDelimiter b = false → endsValue b = false ∧ blank b = false :=
  bytes_forall (p := fun b => tokenDelimiter b = false → endsValue b = false ∧ blank b = false) (by decide +kernel) b

/-- In a value without quotes that has not ended before the name. -/
theorem shows_unquoted (previous : Option UInt8) (hs : ∀ b ∈ s, tokenDelimiter b = false) (after : List Member) :
    Shows fun x => scan (skipUnquoted previous (s ++ ending after x)).1 (skipUnquoted previous (s ++ ending after x)).2 := by
  have hskip (previous : Option UInt8) (b : UInt8) (t : Bytes) (hb : tokenDelimiter b = false) :
      skipUnquoted previous (b :: t) = skipUnquoted (some b) t := by
    rw [skipUnquoted, (goesOn b hb).1, (goesOn b hb).2]
    rfl
  induction s generalizing previous with
  | nil =>
    refine (shows_comma (some 39) after).congr fun x => ?_
    rw [List.nil_append, ending, probe, List.cons_append, hskip _ _ _ (by decide), hskip _ _ _ (by decide),
      hskip _ _ _ (by decide), hskip _ _ _ (by decide)]
    rfl
  | cons b s ih =>
    simp only [List.cons_append, hskip _ _ _ (hs b (by simp))]
    exact ih _ fun b' hb' => hs b' (by simp [hb'])

theorem keyByte_iff (b : UInt8) : tokenDelimiter b = false → (keyByte (some 34) b = true ↔ b ≠ 61 ∧ b ≠ 58 ∧ b ≠ 34) :=
  bytes_forall (p := fun b => tokenDelimiter b = false → (keyByte (some 34) b = true ↔ b ≠ 61 ∧ b ≠ 58 ∧ b ≠ 34))
    (by decide +kernel) b

theorem first_bad (hs : ∀ b ∈ s, tokenDelimiter b = false) (hbad : ¬ ∀ b ∈ s, b ≠ 61 ∧ b ≠ 58 ∧ b ≠ 34) :
    ∃ key c rest, s = key ++ c :: rest ∧ (∀ b ∈ key, keyByte (some 34) b = true) ∧ keyByte (some 34) c = false := by
  induction s with
  | nil => exact absurd (by simp) hbad
  | cons b s ih =>
    have hb := keyByte_iff b (hs b (by simp))
    by_cases hkey : keyByte (some 34) b = true
    · have hlater : ¬ ∀ b ∈ s, b ≠ 61 ∧ b ≠ 58 ∧ b ≠ 34 := fun h =>
        hbad (List.forall_mem_cons.mpr ⟨hb.mp hkey, h⟩)
      obtain ⟨key, c, rest, rfl, hgood, hc⟩ := ih (fun b' hb' => hs b' (by simp [hb'])) hlater
      exact ⟨b :: key, c, rest, rfl, List.forall_mem_cons.mpr ⟨hkey, hgood⟩, hc⟩
    · exact ⟨[], b, s, rfl, by simp, Bool.eq_false_iff.mpr hkey⟩

/-- The value of an assignment that was found inside the name. -/
theorem shows_value {key upTo : Bytes} (hs : ∀ b ∈ s, tokenDelimiter b = false) (after : List Member) :
    Shows fun x => scan (skipValue ⟨key, upTo, s ++ ending after x⟩).1 (skipValue ⟨key, upTo, s ++ ending after x⟩).2 := by
  cases s with
  | nil =>
    refine (shows_probe after).congr fun x => ?_
    have hcursor : (ending after x).dropWhile blank = ending after x := List.dropWhile_cons_of_neg (by decide)
    simp only [skipValue, List.nil_append, hcursor]
    rw [ending]
    simp [isQuote, skipQuoted]
  | cons f s =>
    have hf := hs f (by simp)
    have hrest : ∀ b ∈ s, tokenDelimiter b = false := fun b hb => hs b (by simp [hb])
    have hcursor (x : UInt8) : (f :: s ++ ending after x).dropWhile blank = f :: (s ++ ending after x) :=
      List.dropWhile_cons_of_neg (by simp [goesOn f hf])
    have hnone (x : UInt8) : (f :: s ++ ending after x).takeWhile blank = [] :=
      List.takeWhile_cons_of_neg (by simp [goesOn f hf])
    simp only [skipValue, hcursor, hnone, List.append_nil]
    by_cases hquote : isQuote f = true
    · simp only [hquote, if_true]
      exact shows_quoted hquote hrest false after
    · simp only [hquote, Bool.false_eq_true, if_false]
      exact shows_unquoted upTo.getLast? hs after

/-- **A name that is no key shows the value.** -/
theorem shows_badName (h : Stops d) (hs : ∀ b ∈ s, tokenDelimiter b = false)
    (hbad : ¬ ∀ b ∈ s, b ≠ 61 ∧ b ≠ 58 ∧ b ≠ 34) (after : List Member) :
    Shows fun x => scan (some d) (34 :: (s ++ ending after x)) := by
  -- no assignment is found, and the name is copied
  have hcopied (hnone : ∀ x, sensitiveAssignment (some d) (34 :: (s ++ ending after x)) = none) :
      Shows fun x => scan (some d) (34 :: (s ++ ending after x)) :=
    ((shows_name (p := 34) (by decide) hs after).cons 34).congr fun x => scan_none (hnone x)
  obtain ⟨key, c, rest, hparts, hkey, hc⟩ := first_bad hs hbad
  cases rest with
  | nil =>
    refine hcopied fun x => ?_
    have htext : s ++ ending after x = key ++ c :: 34 :: 58 :: 34 :: (probe x ++ 34 :: back after) := by
      rw [hparts, ending]
      simp
    rw [sensitiveAssignment, htext, findAssignment_quoted h hkey hc (by decide), if_neg (fun hcond => by
      rcases hcond.2.2 with h | h <;> exact absurd h (by decide))]
    rfl
  | cons e rest =>
    have he : tokenDelimiter e = false := hs e (by simp [hparts])
    have hrest : ∀ b ∈ rest, tokenDelimiter b = false := fun b hb => hs b (by simp [hparts, hb])
    have htext (x : UInt8) : s ++ ending after x = key ++ c :: e :: (rest ++ ending after x) := by
      rw [hparts]
      simp
    have hfind (x : UInt8) := findAssignment_quoted h hkey hc (goesOn e he).2 (rest ++ ending after x)
    by_cases hfound : (c = 34 ∧ key ≠ [] ∧ (e = 61 ∨ e = 58)) ∧ sensitiveKey (key.take 63) = true
    · have hsome (x : UInt8) : sensitiveAssignment (some d) (34 :: (s ++ ending after x)) =
          some ⟨key, 34 :: (key ++ [34, e]), rest ++ ending after x⟩ := by
        rw [sensitiveAssignment, htext, hfind, if_pos hfound.1, Option.filter_some, if_pos hfound.2]
      have hvalue : Shows fun x => scan (skipValue ⟨key, 34 :: (key ++ [34, e]), rest ++ ending after x⟩).1
          (skipValue ⟨key, 34 :: (key ++ [34, e]), rest ++ ending after x⟩).2 := shows_value hrest after
      exact ((hvalue.append redacted).append (34 :: (key ++ [34, e]))).congr fun x => scan_some (hsome x)
    · refine hcopied fun x => ?_
      rw [sensitiveAssignment, htext, hfind]
      split_ifs with hcond
      · rw [Option.filter_some, if_neg fun hsensitive => hfound ⟨hcond, hsensitive⟩]
      · rfl

/-! ### Two values of one member -/

/-- A buffer of this size cuts nothing off. -/
def LargeEnough (outputSize : ℕ) (input : Bytes) : Prop :=
  ∀ more, redactSensitiveAssignments (outputSize + more) input = redactSensitiveAssignments outputSize input

/-- Which string is the value of the member does not show. -/
def Hidden (before : List Member) (m : Member) (after : List Member) : Prop :=
  ∀ v w outputSize, Characters v → Characters w → LargeEnough outputSize (objectWith before m.name v after) →
    LargeEnough outputSize (objectWith before m.name w after) →
      redactSensitiveAssignments outputSize (objectWith before m.name v after) =
        redactSensitiveAssignments outputSize (objectWith before m.name w after)

theorem largeEnough_of_lt {outputSize : ℕ} (h : (scan none input).length < outputSize) : LargeEnough outputSize input :=
  fun more => by
    rw [redactSensitiveAssignments, redactSensitiveAssignments, redactLoop_scan, redactLoop_scan,
      List.take_of_length_le (by omega), List.take_of_length_le (by omega)]

theorem characters_probe {x : UInt8} (h : x = 97 ∨ x = 98) : Characters (probe x) := by
  have hx : 32 ≤ x ∧ x ≠ 34 ∧ x ≠ 92 := by rcases h with rfl | rfl <;> decide
  exact .plain (by decide) (by decide) (by decide) (.plain (by decide) (by decide) (by decide)
    (.plain hx.1 hx.2.1 hx.2.2 .nil))

/-- **Where a value is shown**: inside a value that is skipped, or behind a name that is no key. -/
theorem shows_object (before : List Member) (m : Member) (after : List Member)
    (hplain : ∀ b ∈ m.name, tokenDelimiter b = false)
    (h : ¬ (insideQuote none (front before) = none ∧ ∀ b ∈ m.name, b ≠ 61 ∧ b ≠ 58 ∧ b ≠ 34)) :
    Shows fun x => scan none (objectWith before m.name (probe x) after) := by
  obtain ⟨s, d, hfront, hd, hends⟩ := front_stop before
  obtain ⟨out, hscan⟩ := scan_before hd none s hends
  have hobject (x : UInt8) : objectWith before m.name (probe x) after = s ++ d :: 34 :: (m.name ++ ending after x) := by
    rw [objectWith, hfront, memberText, ending]
    simp
  have hrest : Shows fun x => scanFrom (insideQuote none (front before)) d (34 :: (m.name ++ ending after x)) := by
    cases hinside : insideQuote none (front before) with
    | none => exact shows_badName hd hplain (fun hkey => h ⟨hinside, hkey⟩) after
    | some q =>
      have hnames : ∀ b ∈ 34 :: m.name, tokenDelimiter b = false := List.forall_mem_cons.mpr ⟨by decide, hplain⟩
      exact shows_quoted (isQuote_of_insideQuote hinside) hnames false after
  refine (hrest.append out).congr fun x => ?_
  rw [hobject, hscan, hfront]

/-- **Where a value is hidden**: behind what is scanned as usual, under a name that is a key. -/
theorem scan_object (before : List Member) {name : Bytes} (after : List Member) (hmain : insideQuote none (front before) = none)
    (hname : name ≠ []) (hlength : name.length ≤ 63) (hsensitive : sensitiveKey name = true)
    (hkey : ∀ b ∈ name, keyByte (some 34) b = true) :
    ∃ out, ∀ v, Characters v → scan none (objectWith before name v after) = out ++ scan (some 34) (back after) := by
  obtain ⟨s, d, hfront, hd, hends⟩ := front_stop before
  obtain ⟨out, hscan⟩ := scan_before hd none s hends
  refine ⟨out ++ ((34 :: (name ++ [34, 58])) ++ redacted), fun v hv => ?_⟩
  have hobject : objectWith before name v after = s ++ d :: (memberText name v ++ back after) := by
    rw [objectWith, hfront, List.append_assoc]
    rfl
  rw [hobject, hscan, ← hfront, hmain]
  change out ++ scan (some d) (memberText name v ++ back after) = _
  rw [scan_member hd hname hlength hsensitive hkey hv, List.append_assoc, List.append_assoc]

/-- **When a value is hidden.** The member has a name of at most 63 bytes without delimiters that is sensitive. -/
theorem redaction_iff (before : List Member) (m : Member) (after : List Member) (hlength : m.name.length ≤ 63)
    (hplain : ∀ b ∈ m.name, tokenDelimiter b = false) (hsensitive : sensitiveKey m.name = true) :
    Hidden before m after ↔ insideQuote none (front before) = none ∧ ∀ b ∈ m.name, b ≠ 61 ∧ b ≠ 58 ∧ b ≠ 34 := by
  constructor
  · intro hhidden
    by_contra h
    have hne := (shows_object before m after hplain h).ne
    let text (x : UInt8) : Bytes := objectWith before m.name (probe x) after
    obtain ⟨outputSize, hfirst, hsecond⟩ : ∃ outputSize,
        (scan none (text 97)).length < outputSize ∧ (scan none (text 98)).length < outputSize :=
      ⟨(scan none (text 97)).length + (scan none (text 98)).length + 1, by omega, by omega⟩
    have hsame := hhidden (probe 97) (probe 98) outputSize (characters_probe (Or.inl rfl)) (characters_probe (Or.inr rfl))
      (largeEnough_of_lt hfirst) (largeEnough_of_lt hsecond)
    change redactSensitiveAssignments outputSize (text 97) = redactSensitiveAssignments outputSize (text 98) at hsame
    rw [redactSensitiveAssignments, redactSensitiveAssignments, redactLoop_scan, redactLoop_scan,
      List.take_of_length_le (by omega), List.take_of_length_le (by omega)] at hsame
    exact hne hsame
  · rintro ⟨hmain, hkey⟩ v w outputSize hv hw - -
    have hname : m.name ≠ [] := by
      intro hnil
      rw [hnil] at hsensitive
      exact absurd hsensitive (by decide)
    have hbytes : ∀ b ∈ m.name, keyByte (some 34) b = true := fun b hb => (keyByte_iff b (hplain b hb)).mpr (hkey b hb)
    obtain ⟨out, hout⟩ := scan_object before after hmain hname hlength hsensitive hbytes
    rw [redactSensitiveAssignments, redactSensitiveAssignments, redactLoop_scan, redactLoop_scan, hout v hv, hout w hw]

/-- A string without escapes. -/
theorem characters_plain {s : Bytes} (h : ∀ b ∈ s, 32 ≤ b ∧ b ≠ 34 ∧ b ≠ 92) : Characters s := by
  induction s with
  | nil => exact .nil
  | cons b s ih =>
    obtain ⟨hvisible, hquote, hbackslash⟩ := h b (by simp)
    exact .plain hvisible hquote hbackslash (ih fun b' hb' => h b' (by simp [hb']))

def password : Member :=
  ⟨ascii "password", ascii "hunter2", characters_plain (by decide +kernel), characters_plain (by decide +kernel)⟩

/-- A member whose value ends in what looks like an assignment. -/
def note : Member :=
  ⟨ascii "note", ascii "x,token:", characters_plain (by decide +kernel), characters_plain (by decide +kernel)⟩

theorem password_plain : password.name.length ≤ 63 ∧ (∀ b ∈ password.name, tokenDelimiter b = false) ∧
    sensitiveKey password.name = true ∧ ∀ b ∈ password.name, b ≠ 61 ∧ b ≠ 58 ∧ b ≠ 34 := by decide +kernel

theorem redaction_iff_password : Hidden [] password [note] :=
  (redaction_iff [] password [note] password_plain.1 password_plain.2.1 password_plain.2.2.1).mpr
    ⟨by decide +kernel, password_plain.2.2.2⟩

/-- The quote that closes the note opens a value for the scanner, which ends at the quote that opens the name. -/
theorem password_shown : ¬ ∀ before m after, m.name.length ≤ 63 → (∀ b ∈ m.name, tokenDelimiter b = false) →
    sensitiveKey m.name = true → Hidden before m after := by
  intro h
  have hfacts : ((∀ b ∈ ascii "hunter2", 32 ≤ b ∧ b ≠ 34 ∧ b ≠ 92) ∧
        ∀ b ∈ ascii "letmein", 32 ≤ b ∧ b ≠ 34 ∧ b ≠ 92) ∧
      ((scan none (objectWith [note] password.name (ascii "hunter2") [])).length < 100 ∧
        (scan none (objectWith [note] password.name (ascii "letmein") [])).length < 100) ∧
      (scan none (objectWith [note] password.name (ascii "hunter2") [])).take 99 ≠
        (scan none (objectWith [note] password.name (ascii "letmein") [])).take 99 := by decide +kernel
  obtain ⟨⟨hfirst, hsecond⟩, ⟨hlength, hlength'⟩, hdiffer⟩ := hfacts
  have hhidden := h [note] password [] password_plain.1 password_plain.2.1 password_plain.2.2.1
  have hsame := hhidden (ascii "hunter2") (ascii "letmein") 100 (characters_plain hfirst) (characters_plain hsecond)
    (largeEnough_of_lt hlength) (largeEnough_of_lt hlength')
  rw [redactSensitiveAssignments, redactSensitiveAssignments, redactLoop_scan, redactLoop_scan] at hsame
  exact hdiffer hsame

end PowerMonitor.Diagnostics.Redaction
