import PowerMonitor.Lib.Binary
import PowerMonitor.Lib.Delimited

/-! # The two readers of the session cookie

Authorization reads the cookie with `parseBoundedCookie`, which goes through the pairs between semicolons; a session is
elevated or refreshed with the value of `cookieValue`, which searches the text for the name behind a space, a semicolon
or nothing. Both are read off the pairs of the header.

* `parsePairs_pairs`: the first reader takes the first pair that is the name behind blanks.
* `cookieValue_spaced`, `spaced_pairs`: the second one takes the first pair that has the name at its start or behind a
  space.
* `readers_agree_iff`: the two agree if they take the same place, and else only if the texts there happen to agree. -/

namespace PowerMonitor.Api.Cookies

open PowerMonitor.Lib.Binary PowerMonitor.Lib.Delimited

/-! ### The readers -/

/-- `std::string::find`: where a text first occurs in another. -/
def find (pattern : Bytes) : Bytes → Option ℕ
  | [] => if pattern = [] then some 0 else none
  | b :: rest => if pattern.isPrefixOf (b :: rest) then some 0 else (find pattern rest).map (· + 1)

/-- Where it first occurs from a position on. -/
def findFrom (pattern text : Bytes) (position : ℕ) : Option ℕ := (find pattern (text.drop position)).map (position + ·)

theorem find_spec {pattern text : Bytes} {i : ℕ} (h : find pattern text = some i) :
    pattern <+: text.drop i ∧ ∀ k < i, ¬ pattern <+: text.drop k := by
  induction text generalizing i with
  | nil =>
    simp only [find, Option.ite_none_right_eq_some, Option.some.injEq] at h
    obtain ⟨rfl, rfl⟩ := h
    simp
  | cons b rest ih =>
    rw [find] at h
    split_ifs at h with hhere
    · obtain rfl := Option.some.inj h
      exact ⟨List.isPrefixOf_iff_prefix.mp hhere, fun k hk => absurd hk (by omega)⟩
    · obtain ⟨j, hj, rfl⟩ := Option.map_eq_some_iff.mp h
      obtain ⟨hat, hbefore⟩ := ih hj
      refine ⟨hat, fun k hk => ?_⟩
      cases k with
      | zero => rwa [List.drop_zero, ← List.isPrefixOf_iff_prefix]
      | succ k => exact hbefore k (by omega)

theorem find_none {pattern text : Bytes} (h : find pattern text = none) (k : ℕ) : ¬ pattern <+: text.drop k := by
  induction text generalizing k with
  | nil =>
    intro hp
    rw [List.drop_nil, List.prefix_nil] at hp
    simp [find, hp] at h
  | cons b rest ih =>
    rw [find] at h
    split_ifs at h with hhere
    cases k with
    | zero => rwa [List.drop_zero, ← List.isPrefixOf_iff_prefix]
    | succ k => exact ih (Option.map_eq_none_iff.mp h) k

theorem findFrom_spec {pattern text : Bytes} {position i : ℕ} (h : findFrom pattern text position = some i) :
    position ≤ i ∧ pattern <+: text.drop i ∧ ∀ k, position ≤ k → k < i → ¬ pattern <+: text.drop k := by
  obtain ⟨j, hj, rfl⟩ := Option.map_eq_some_iff.mp h
  obtain ⟨hat, hbefore⟩ := find_spec hj
  rw [List.drop_drop] at hat
  refine ⟨by omega, hat, fun k hle hlt => ?_⟩
  have hk := hbefore (k - position) (by omega)
  rwa [List.drop_drop, Nat.add_sub_cancel' hle] at hk

theorem findFrom_none {pattern text : Bytes} {position : ℕ} (h : findFrom pattern text position = none) {k : ℕ}
    (hk : position ≤ k) : ¬ pattern <+: text.drop k := by
  have hnone := find_none (Option.map_eq_none_iff.mp h) (k - position)
  rwa [List.drop_drop, Nat.add_sub_cancel' hk] at hnone

/-- Where the name with its equals sign is, at the start or behind a space or a semicolon. -/
def searchCookie (name cookies : Bytes) (position : ℕ) : Option ℕ :=
  match _hfound : findFrom (name ++ [61]) cookies position with
  | none => none
  | some found =>
    if 0 < found ∧ cookies[found - 1]? ≠ some 32 ∧ cookies[found - 1]? ≠ some 59 then
      searchCookie name cookies (found + (name ++ [61]).length)
    else some found
termination_by cookies.length + 1 - position
decreasing_by
  obtain ⟨hle, hat, -⟩ := findFrom_spec _hfound
  have hlength := hat.length_le
  rw [List.length_append, List.length_singleton, List.length_drop] at hlength
  rw [List.length_append, List.length_singleton]
  omega

/-- What `std::string` takes of a text of the header. -/
def untilNul (s : Bytes) : Bytes := s.takeWhile (· != 0)

def cookieValue (header : Option Bytes) (name : Bytes) : Bytes :=
  match header with
  | none => []
  | some value =>
    let cookies := untilNul value
    match searchCookie name cookies 0 with
    | none => []
    | some position => (cookies.drop (position + (name ++ [61]).length)).takeWhile (· != 59)

structure BoundedCookieValue where
  storage : Bytes := []
  found : Bool := false
  overflow : Bool := false
  deriving DecidableEq, Repr

def BoundedCookieValue.view (v : BoundedCookieValue) : Bytes := if v.overflow then [] else v.storage

/-- A space or a tab. -/
def blank (b : UInt8) : Bool := b == 32 || b == 9

/-- What stands before a pair. -/
def separator (b : UInt8) : Bool := b == 59 || blank b

/-- What is found of the value of a pair. -/
def boundedValue (capacity : ℕ) (value : Bytes) : BoundedCookieValue :=
  if capacity < value.length then { found := true, overflow := true } else { storage := value, found := true }

def parsePairs (capacity : ℕ) (name rest : Bytes) : BoundedCookieValue :=
  let trimmed := rest.dropWhile separator
  if _hend : trimmed = [] then {}
  else
    let pair := trimmed.takeWhile (· != 59)
    let later := parsePairs capacity name (trimmed.drop (pair.length + 1))
    match cutAt 61 pair with
    | (key, some value) => if key = name then boundedValue capacity value else later
    | (_, none) => later
termination_by rest.length
decreasing_by
  have hpos : 0 < (rest.dropWhile separator).length := List.length_pos_iff.mpr _hend
  have hle := (List.dropWhile_suffix separator (l := rest)).length_le
  rw [List.length_drop]
  omega

def parseBoundedCookie (capacity : ℕ) (cookies name : Bytes) : BoundedCookieValue :=
  if cookies = [] ∨ name = [] then {} else parsePairs capacity name cookies

def kSessionTokenCharacters : ℕ := 64

def sessionCookie (header : Option Bytes) : BoundedCookieValue :=
  match header with
  | none => {}
  | some cookies => parseBoundedCookie kSessionTokenCharacters cookies (ascii "pm_session")

/-! ### The pairs -/

/-- The texts between the semicolons. -/
def pairs (cookies : Bytes) : List Bytes :=
  match _hcut : cutAt 59 cookies with
  | (pair, none) => [pair]
  | (pair, some rest) => pair :: pairs rest
termination_by cookies.length
decreasing_by
  rcases cutAt_cases 59 cookies with ⟨-, hcut⟩ | ⟨head, tail, -, hcookies, hcut⟩
  · rw [hcut] at _hcut
    cases _hcut
  · rw [hcut] at _hcut
    obtain ⟨rfl, rfl⟩ : head = pair ∧ tail = rest := by simpa using _hcut
    rw [hcookies, List.length_append, List.length_cons]
    omega

/-- The value of a pair with the name. -/
def namedValue (name pair : Bytes) : Option Bytes :=
  match cutAt 61 pair with
  | (key, some value) => if key = name then some value else none
  | (_, none) => none

/-- The value of a pair that is the name behind blanks. -/
def blankPair (name pair : Bytes) : Option Bytes := namedValue name (pair.dropWhile blank)

/-- The text behind the first name that is at the start (if `start`), or behind a space or a semicolon. -/
def spaced (name : Bytes) : Bool → Bytes → Option Bytes
  | _, [] => none
  | start, b :: rest =>
    if start && (name ++ [61]).isPrefixOf (b :: rest) then some ((b :: rest).drop (name ++ [61]).length)
    else spaced name (b == 32 || b == 59) rest

/-- A name that can be told from its value and from other pairs, and does not start with a blank. -/
structure Name (name : Bytes) : Prop where
  notEquals : 61 ∉ name
  notSemicolon : 59 ∉ name
  visible : ∃ b s, name = b :: s ∧ blank b = false

variable {name cookies pair rest value : Bytes} {capacity : ℕ}

theorem pairs_last (h : 59 ∉ pair) : pairs pair = [pair] := by
  rw [pairs]
  split
  · next hcut => rw [cutAt_of_notMem h] at hcut; cases hcut; rfl
  · next hcut => rw [cutAt_of_notMem h] at hcut; cases hcut

theorem pairs_cons (h : 59 ∉ pair) (rest : Bytes) : pairs (pair ++ 59 :: rest) = pair :: pairs rest := by
  rw [pairs]
  split
  · next hcut => rw [cutAt_append h] at hcut; cases hcut
  · next hcut => rw [cutAt_append h] at hcut; cases hcut; rfl

/-- A header is a pair, or a pair, a semicolon and a shorter header. -/
theorem pairs_induction {motive : Bytes → Prop} (last : ∀ pair, 59 ∉ pair → motive pair)
    (cons : ∀ pair rest, 59 ∉ pair → motive rest → motive (pair ++ 59 :: rest)) (cookies : Bytes) : motive cookies := by
  generalize hn : cookies.length = n
  induction n using Nat.strongRecOn generalizing cookies with
  | ind n ih =>
    rcases cutAt_cases 59 cookies with ⟨h, -⟩ | ⟨pair, rest, h, rfl, -⟩
    · exact last cookies h
    · refine cons pair rest h (ih rest.length ?_ rest rfl)
      rw [← hn, List.length_append, List.length_cons]
      omega

/-! ### The search -/

/-- No text of the name and its equals sign begins inside another. -/
theorem apart (hname : Name name) {text : Bytes} {i k : ℕ} (hi : name ++ [61] <+: text.drop i)
    (hk : name ++ [61] <+: text.drop k) (hlt : i < k) : i + (name ++ [61]).length ≤ k := by
  by_contra hover
  rw [List.length_append, List.length_singleton] at hover
  have hat : (text.drop i)[name.length]? = some 61 := by
    obtain ⟨tail, htail⟩ := hi
    rw [← htail, List.append_assoc, List.getElem?_append_right le_rfl]
    simp
  rw [List.getElem?_drop] at hat
  obtain ⟨tail, htail⟩ := hk
  have hinside : (text.drop k)[i + name.length - k]? = some 61 := by
    rw [List.getElem?_drop, show k + (i + name.length - k) = i + name.length by omega]
    exact hat
  rw [← htail, List.append_assoc, List.getElem?_append_left (by omega)] at hinside
  exact hname.notEquals (List.mem_of_getElem? hinside)

/-- The name is at a position, and may be taken there. -/
def TakenAt (name : Bytes) (start : Bool) (text : Bytes) (i : ℕ) : Prop :=
  name ++ [61] <+: text.drop i ∧ (i = 0 → start = true) ∧ (0 < i → text[i - 1]? = some 32 ∨ text[i - 1]? = some 59)

/-- The first number from `n` on with a property. -/
def First (P : ℕ → Prop) (n : ℕ) : Option ℕ → Prop
  | none => ∀ k, n ≤ k → ¬ P k
  | some i => n ≤ i ∧ P i ∧ ∀ k, n ≤ k → k < i → ¬ P k

theorem First.unique {P : ℕ → Prop} {n : ℕ} {r r' : Option ℕ} (h : First P n r) (h' : First P n r') : r = r' := by
  cases r with
  | none =>
    cases r' with
    | none => rfl
    | some j => exact absurd h'.2.1 (h j h'.1)
  | some i =>
    cases r' with
    | none => exact absurd h.2.1 (h' i h.1)
    | some j =>
      rcases Nat.lt_trichotomy i j with hlt | rfl | hlt
      · exact absurd h.2.1 (h'.2.2 i h.1 hlt)
      · rfl
      · exact absurd h'.2.1 (h.2.2 j h'.1 hlt)

theorem First.skip {P : ℕ → Prop} {n m : ℕ} {r : Option ℕ} (hle : n ≤ m) (hnone : ∀ k, n ≤ k → k < m → ¬ P k)
    (h : First P m r) : First P n r := by
  have hbefore (k : ℕ) (hk : n ≤ k) (hm : m ≤ k → ¬ P k) : ¬ P k := by
    rcases Nat.lt_or_ge k m with hlt | hge
    · exact hnone k hk hlt
    · exact hm hge
  cases r with
  | none => exact fun k hk => hbefore k hk (h k)
  | some i => exact ⟨hle.trans h.1, h.2.1, fun k hk hlt => hbefore k hk fun hm => h.2.2 k hm hlt⟩

/-- **The search finds the first place** at which the name may be taken. -/
theorem searchCookie_first (hname : Name name) (cookies : Bytes) (position : ℕ) :
    First (TakenAt name true cookies) position (searchCookie name cookies position) := by
  induction position using searchCookie.induct name cookies with
  | case1 position hnone =>
    rw [searchCookie]
    split
    · exact fun k hk htaken => findFrom_none hnone hk htaken.1
    · next hsome =>
      rw [hnone] at hsome
      cases hsome
  | case2 position found hfound hrefused ih =>
    obtain ⟨hle, hat, hbefore⟩ := findFrom_spec hfound
    have hskip : First (TakenAt name true cookies) position (searchCookie name cookies (found + (name ++ [61]).length)) := by
      refine ih.skip (by omega) fun k hk hlt htaken => ?_
      rcases Nat.lt_trichotomy k found with hk' | rfl | hk'
      · exact hbefore k hk hk' htaken.1
      · exact (htaken.2.2 hrefused.1).elim hrefused.2.1 hrefused.2.2
      · have := apart hname hat htaken.1 hk'
        omega
    rw [searchCookie]
    split
    · next hnone =>
      rw [hfound] at hnone
      cases hnone
    · next hsome =>
      obtain rfl := Option.some.inj (hfound.symm.trans hsome)
      rwa [if_pos hrefused]
  | case3 position found hfound haccepted =>
    obtain ⟨hle, hat, hbefore⟩ := findFrom_spec hfound
    rw [searchCookie]
    split
    · next hnone =>
      rw [hfound] at hnone
      cases hnone
    · next hsome =>
      obtain rfl := Option.some.inj (hfound.symm.trans hsome)
      rw [if_neg haccepted]
      refine ⟨hle, ⟨hat, fun _ => rfl, fun hpos => ?_⟩, fun k hk hlt htaken => hbefore k hk hlt htaken.1⟩
      by_contra hneither
      exact haccepted ⟨hpos, fun h => hneither (Or.inl h), fun h => hneither (Or.inr h)⟩

theorem takenAt_succ {b : UInt8} {start : Bool} {k : ℕ} :
    TakenAt name start (b :: rest) (k + 1) ↔ TakenAt name (b == 32 || b == 59) rest k := by
  refine and_congr Iff.rfl ?_
  cases k with
  | zero => simp
  | succ k => simp

theorem takenAt_zero {b : UInt8} {start : Bool} :
    TakenAt name start (b :: rest) 0 ↔ (start && (name ++ [61]).isPrefixOf (b :: rest)) = true := by
  rw [Bool.and_eq_true, List.isPrefixOf_iff_prefix]
  exact ⟨fun h => ⟨h.2.1 rfl, h.1⟩, fun h => ⟨h.2, fun _ => h.1, fun hpos => absurd hpos (by decide)⟩⟩

theorem First.succ {P Q : ℕ → Prop} (hstep : ∀ k, Q (k + 1) ↔ P k) (hzero : ¬ Q 0) {r : Option ℕ} (h : First P 0 r) :
    First Q 0 (r.map (· + 1)) := by
  have hbefore (k : ℕ) (hk : ∀ j, k = j + 1 → ¬ P j) : ¬ Q k := by
    cases k with
    | zero => exact hzero
    | succ j => exact fun hq => hk j rfl ((hstep j).mp hq)
  cases r with
  | none => exact fun k _ => hbefore k fun j _ => h j (Nat.zero_le j)
  | some i =>
    refine ⟨Nat.zero_le _, (hstep i).mpr h.2.1, fun k _ hlt => hbefore k fun j hj => h.2.2 j (Nat.zero_le j) ?_⟩
    subst hj
    exact Nat.lt_of_succ_lt_succ hlt

/-- The text behind the first place at which the name may be taken. -/
theorem spaced_first (name : Bytes) (start : Bool) (text : Bytes) :
    ∃ r, First (TakenAt name start text) 0 r ∧ spaced name start text = r.map fun i => text.drop (i + (name ++ [61]).length) := by
  induction text generalizing start with
  | nil =>
    refine ⟨none, fun k _ htaken => ?_, rfl⟩
    have hnil := htaken.1
    rw [List.drop_nil, List.prefix_nil] at hnil
    simp at hnil
  | cons b rest ih =>
    by_cases hhere : (start && (name ++ [61]).isPrefixOf (b :: rest)) = true
    · refine ⟨some 0, ⟨le_rfl, takenAt_zero.mpr hhere, fun k _ hlt => absurd hlt (by omega)⟩, ?_⟩
      rw [spaced, if_pos hhere, Option.map_some, Nat.zero_add]
    · obtain ⟨r, hfirst, hspaced⟩ := ih (b == 32 || b == 59)
      refine ⟨r.map (· + 1), hfirst.succ (fun k => takenAt_succ) (mt takenAt_zero.mp hhere), ?_⟩
      rw [spaced, if_neg hhere, hspaced, Option.map_map]
      refine Option.map_congr fun i _ => ?_
      rw [Function.comp_apply, Nat.add_right_comm, List.drop_succ_cons]

/-- **What `cookieValue` returns** of a header without NUL bytes. -/
theorem cookieValue_spaced (hname : Name name) (hnul : 0 ∉ cookies) :
    cookieValue (some cookies) name = ((spaced name true cookies).map (·.takeWhile (· != 59))).getD [] := by
  have huntil : untilNul cookies = cookies :=
    List.takeWhile_eq_self_iff.mpr fun _ hb => bne_iff_ne.mpr fun hzero => hnul (hzero ▸ hb)
  obtain ⟨r, hfirst, hspaced⟩ := spaced_first name true cookies
  have hsearch := (searchCookie_first hname cookies 0).unique hfirst
  unfold cookieValue
  simp only [huntil, hsearch, hspaced]
  cases r <;> rfl

/-! ### Pair by pair -/

theorem Name.notMem (hname : Name name) : 59 ∉ name ++ [61] := by
  rw [List.mem_append, List.mem_singleton, not_or]
  exact ⟨hname.notSemicolon, by decide⟩

/-- A text without a semicolon is before the first one. -/
theorem prefix_semicolon {p s : Bytes} (h : 59 ∉ p) (t : Bytes) : p <+: s ++ 59 :: t ↔ p <+: s := by
  refine ⟨fun hp => ?_, fun hp => hp.trans (List.prefix_append _ _)⟩
  rcases List.prefix_or_prefix_of_prefix hp (List.prefix_append s (59 :: t)) with hs | ⟨u, rfl⟩
  · exact hs
  · cases u with
    | nil => simp
    | cons c u =>
      rw [List.prefix_append_right_inj, List.cons_prefix_cons] at hp
      exact absurd (by simp [hp.1]) h

theorem spaced_suffix {start : Bool} (h : spaced name start pair = some value) : value <:+ pair := by
  induction pair generalizing start with
  | nil => cases h
  | cons b pair ih =>
    rw [spaced] at h
    split_ifs at h
    · obtain rfl := Option.some.inj h
      exact List.drop_suffix _ _
    · exact (ih h).trans (List.suffix_cons b pair)

/-- The first place is in the first pair, or in the rest. -/
theorem spaced_append (hname : Name name) (start : Bool) (pair rest : Bytes) :
    spaced name start (pair ++ 59 :: rest) =
      ((spaced name start pair).map (· ++ 59 :: rest)).or (spaced name true rest) := by
  induction pair generalizing start with
  | nil =>
    obtain ⟨b, s, rfl, -⟩ := hname.visible
    have hb : b ≠ 59 := fun h => hname.notSemicolon (h ▸ List.mem_cons_self)
    simp [spaced, hb]
  | cons b pair ih =>
    have hprefix : (name ++ [61]).isPrefixOf (b :: (pair ++ 59 :: rest)) = (name ++ [61]).isPrefixOf (b :: pair) := by
      rw [Bool.eq_iff_iff, List.isPrefixOf_iff_prefix, List.isPrefixOf_iff_prefix, ← List.cons_append,
        prefix_semicolon hname.notMem]
    rw [List.cons_append, spaced, spaced, hprefix]
    split_ifs with hhere
    · rw [Bool.and_eq_true, List.isPrefixOf_iff_prefix] at hhere
      rw [← List.cons_append, List.drop_append_of_le_length hhere.2.length_le]
      rfl
    · exact ih _

theorem takeWhile_semicolon (h : 59 ∉ value) : value.takeWhile (· != 59) = value :=
  List.takeWhile_eq_self_iff.mpr fun _ hb => bne_iff_ne.mpr fun heq => h (heq ▸ hb)

/-- **The value behind the first place**, pair by pair. -/
theorem spaced_pairs (hname : Name name) (cookies : Bytes) :
    (spaced name true cookies).map (·.takeWhile (· != 59)) = (pairs cookies).findSome? (spaced name true) := by
  induction cookies using pairs_induction with
  | last pair hpair =>
    rw [pairs_last hpair, List.findSome?_singleton]
    cases hvalue : spaced name true pair with
    | none => rfl
    | some value =>
      rw [Option.map_some, takeWhile_semicolon fun hmem => hpair ((spaced_suffix hvalue).subset hmem)]
  | cons pair rest hpair ih =>
    rw [pairs_cons hpair, List.findSome?_cons, spaced_append hname]
    cases hvalue : spaced name true pair with
    | none => rw [← ih]; rfl
    | some value =>
      have hnone : 59 ∉ value := fun hmem => hpair ((spaced_suffix hvalue).subset hmem)
      simp [takeWhile_append hnone]

theorem dropWhile_separator (h : 59 ∉ pair) (tail : Bytes) :
    (pair ++ tail).dropWhile separator =
      if pair.dropWhile blank = [] then tail.dropWhile separator else pair.dropWhile blank ++ tail := by
  induction pair with
  | nil => rfl
  | cons b pair ih =>
    rw [List.mem_cons, not_or] at h
    have hsame : separator b = blank b := by
      rw [separator, beq_false_of_ne (Ne.symm h.1), Bool.false_or]
    rw [List.cons_append, List.dropWhile_cons, List.dropWhile_cons, hsame]
    by_cases hblank : blank b = true
    · rw [if_pos hblank, if_pos hblank]
      exact ih h.2
    · rw [if_neg hblank, if_neg hblank, if_neg (List.cons_ne_nil _ _)]
      rfl

/-- The rest of a header does not matter but for what is trimmed. -/
theorem parsePairs_congr {a b : Bytes} (h : a.dropWhile separator = b.dropWhile separator) :
    parsePairs capacity name a = parsePairs capacity name b := by
  rw [parsePairs, parsePairs]
  simp only [h]

theorem parsePairs_nil : parsePairs capacity name [] = {} := by
  rw [parsePairs]
  rfl

/-- A pair behind its blanks, and what follows it. -/
theorem parsePairs_trimmed {all trimmed tail : Bytes} (hall : all.dropWhile separator = trimmed ++ tail)
    (hne : trimmed ≠ []) (hpair : 59 ∉ trimmed) (htail : tail = [] ∧ rest = [] ∨ tail = 59 :: rest) :
    parsePairs capacity name all =
      ((namedValue name trimmed).map (boundedValue capacity)).getD (parsePairs capacity name rest) := by
  have htake : (trimmed ++ tail).takeWhile (· != 59) = trimmed := by
    rcases htail with ⟨rfl, -⟩ | rfl
    · rw [List.append_nil, takeWhile_semicolon hpair]
    · exact takeWhile_append hpair rest
  have hdrop : (trimmed ++ tail).drop (trimmed.length + 1) = rest := by
    rcases htail with ⟨rfl, rfl⟩ | rfl
    · simp
    · simp
  have hsome : trimmed ++ tail ≠ [] := fun hnil => hne (List.append_eq_nil_iff.mp hnil).1
  rw [parsePairs, namedValue]
  simp only [hall, hsome, htake, hdrop, ↓reduceDIte]
  rcases cutAt_cases 61 trimmed with ⟨-, hcut⟩ | ⟨key, value, -, -, hcut⟩
  · rw [hcut]
    rfl
  · rw [hcut]
    simp only
    split_ifs <;> rfl

theorem blankPair_blank (h : pair.dropWhile blank = []) : blankPair name pair = none := by
  rw [blankPair, h]
  rfl

/-- **What `parseBoundedCookie` finds** is the value of the first pair that is the name behind blanks. -/
theorem parsePairs_pairs (name : Bytes) (capacity : ℕ) (cookies : Bytes) :
    parsePairs capacity name cookies =
      (((pairs cookies).findSome? (blankPair name)).map (boundedValue capacity)).getD {} := by
  induction cookies using pairs_induction with
  | last pair hpair =>
    rw [pairs_last hpair, List.findSome?_singleton]
    have hdrop := dropWhile_separator hpair []
    rw [List.append_nil] at hdrop
    by_cases hblank : pair.dropWhile blank = []
    · rw [if_pos hblank] at hdrop
      rw [blankPair_blank hblank, parsePairs_congr (b := []) hdrop, parsePairs_nil]
      rfl
    · rw [if_neg hblank] at hdrop
      have hnone : 59 ∉ pair.dropWhile blank := fun hmem => hpair ((List.dropWhile_suffix _).subset hmem)
      rw [parsePairs_trimmed hdrop hblank hnone (Or.inl ⟨rfl, rfl⟩), parsePairs_nil]
      rfl
  | cons pair rest hpair ih =>
    rw [pairs_cons hpair, List.findSome?_cons]
    have hdrop := dropWhile_separator hpair (59 :: rest)
    by_cases hblank : pair.dropWhile blank = []
    · rw [if_pos hblank] at hdrop
      rw [blankPair_blank hblank, parsePairs_congr (b := rest) hdrop, ih]
    · rw [if_neg hblank] at hdrop
      have hnone : 59 ∉ pair.dropWhile blank := fun hmem => hpair ((List.dropWhile_suffix _).subset hmem)
      rw [parsePairs_trimmed hdrop hblank hnone (Or.inr rfl), ih, ← blankPair]
      cases blankPair name pair <;> rfl

/-! ### The session -/

def session : Bytes := ascii "pm_session"

theorem session_name : Name session := ⟨by decide, by decide, 112, ascii "m_session", by decide, by decide⟩

/-- The text of the first pair that is the name behind blanks. -/
def behindBlanks (cookies : Bytes) : Option Bytes := (pairs cookies).findSome? (blankPair session)

/-- The text behind the first name at the start of a pair or behind a space. -/
def behindSpace (cookies : Bytes) : Option Bytes := (pairs cookies).findSome? (spaced session true)

theorem sessionCookie_eq (cookies : Bytes) :
    sessionCookie (some cookies) = ((behindBlanks cookies).map (boundedValue kSessionTokenCharacters)).getD {} := by
  have hpairs := parsePairs_pairs session kSessionTokenCharacters cookies
  rw [sessionCookie, parseBoundedCookie]
  split_ifs with hempty
  · have hnil : cookies = [] := hempty.resolve_right (by decide)
    rw [hnil, behindBlanks, pairs_last (by simp)]
    rfl
  · exact hpairs

theorem cookieValue_eq (hnul : 0 ∉ cookies) : cookieValue (some cookies) session = (behindSpace cookies).getD [] := by
  rw [cookieValue_spaced session_name hnul, spaced_pairs session_name, behindSpace]

/-- Each reader returns what the other one finds, if the first one can use it. -/
structure ReadersAgree (cookies : Bytes) : Prop where
  bounded : (sessionCookie (some cookies)).found = true → (sessionCookie (some cookies)).overflow = false →
    cookieValue (some cookies) session = (sessionCookie (some cookies)).view
  searched : cookieValue (some cookies) session ≠ [] →
    (cookieValue (some cookies) session).length ≤ kSessionTokenCharacters →
      (sessionCookie (some cookies)).found = true ∧ (sessionCookie (some cookies)).overflow = false ∧
        (sessionCookie (some cookies)).view = cookieValue (some cookies) session

/-! ### Where the two take the same place -/

/-- The name is behind blanks, of which the last is a space. -/
def Leads (name pair : Bytes) : Prop :=
  ∃ blanks value, pair = blanks ++ (name ++ 61 :: value) ∧ (∀ b ∈ blanks, blank b = true) ∧
    (blanks = [] ∨ blanks.getLast? = some 32)

theorem blankPair_behind (hname : Name name) {blanks : Bytes} (hblanks : ∀ b ∈ blanks, blank b = true) (value : Bytes) :
    blankPair name (blanks ++ (name ++ 61 :: value)) = some value := by
  obtain ⟨b, s, hvisible, hb⟩ := hname.visible
  have htrimmed : (blanks ++ (name ++ 61 :: value)).dropWhile blank = name ++ 61 :: value := by
    rw [List.dropWhile_append, List.dropWhile_eq_nil_iff.mpr hblanks, List.isEmpty_nil, if_pos rfl, hvisible]
    exact List.dropWhile_cons_of_neg (by simp [hb])
  rw [blankPair, htrimmed, namedValue, cutAt_append hname.notEquals]
  exact if_pos rfl

theorem spaced_behind (hname : Name name) {blanks : Bytes} (hblanks : ∀ b ∈ blanks, blank b = true) {start : Bool}
    (hlast : blanks = [] ∧ start = true ∨ blanks.getLast? = some 32) (value : Bytes) :
    spaced name start (blanks ++ (name ++ 61 :: value)) = some value := by
  obtain ⟨c, s, hvisible, hc⟩ := hname.visible
  induction blanks generalizing start with
  | nil =>
    have hstart : start = true := by simpa using hlast
    have hwhole : name ++ 61 :: value = (name ++ [61]) ++ value := by simp
    have hprefix : (name ++ [61]).isPrefixOf (name ++ 61 :: value) = true := by
      rw [List.isPrefixOf_iff_prefix, hwhole]
      exact List.prefix_append _ _
    rw [List.nil_append]
    cases hall : name ++ 61 :: value with
    | nil => simp [hvisible] at hall
    | cons d rest =>
      rw [hall] at hprefix
      rw [spaced, hstart, hprefix, ← hall, hwhole, Bool.and_self, if_pos rfl, List.drop_left]
  | cons b blanks ih =>
    have hb := hblanks b (by simp)
    have hne : b ≠ c := by
      rintro rfl
      rw [hc] at hb
      cases hb
    have hprefix : (name ++ [61]).isPrefixOf (b :: (blanks ++ (name ++ 61 :: value))) = false := by
      rw [Bool.eq_false_iff, ne_eq, List.isPrefixOf_iff_prefix, hvisible, List.cons_append, List.cons_prefix_cons]
      exact fun h => hne h.1.symm
    rw [List.cons_append, spaced, hprefix, Bool.and_false, if_neg (by decide)]
    refine ih (fun b' hb' => hblanks b' (by simp [hb'])) ?_
    cases blanks with
    | nil =>
      have h32 : b = 32 := by simpa using hlast
      exact Or.inl ⟨rfl, by rw [h32]; rfl⟩
    | cons b' blanks =>
      refine Or.inr ?_
      simpa using hlast

/-- The first pair that either reader takes has the name where both look for it, or neither takes one. -/
def SamePlace (cookies : Bytes) : Prop :=
  ∀ pair, (pairs cookies).find? (fun p => (blankPair session p).isSome || (spaced session true p).isSome) = some pair →
    Leads session pair

/-- The texts at the two places are the same, or no reader can use the one at its place. -/
def SameUse (cookies : Bytes) : Prop :=
  behindBlanks cookies = behindSpace cookies ∨ (behindBlanks cookies = some [] ∧ behindSpace cookies = none) ∨
    ((∀ value, behindBlanks cookies = some value → kSessionTokenCharacters < value.length) ∧
      ∀ value, behindSpace cookies = some value → value = [] ∨ kSessionTokenCharacters < value.length)

theorem findSome_congr {α β : Type} {f g : α → Option β} {l : List α}
    (h : ∀ a, l.find? (fun a => (f a).isSome || (g a).isSome) = some a → f a = g a) : l.findSome? f = l.findSome? g := by
  induction l with
  | nil => rfl
  | cons a l ih =>
    rw [List.findSome?_cons, List.findSome?_cons]
    by_cases htaken : ((f a).isSome || (g a).isSome) = true
    · have hsame : f a = g a := h a (List.find?_cons_of_pos (p := fun a => (f a).isSome || (g a).isSome) htaken)
      rw [hsame, Bool.or_self] at htaken
      obtain ⟨b, hb⟩ := Option.isSome_iff_exists.mp htaken
      rw [hsame, hb]
    · have hlater := ih fun a' ha' =>
        h a' ((List.find?_cons_of_neg (p := fun a => (f a).isSome || (g a).isSome) htaken).trans ha')
      simp only [Bool.or_eq_true, not_or, Option.not_isSome_iff_eq_none] at htaken
      rw [htaken.1, htaken.2]
      exact hlater

theorem SamePlace.use (h : SamePlace cookies) : behindBlanks cookies = behindSpace cookies := by
  refine findSome_congr fun pair hpair => ?_
  obtain ⟨blanks, value, rfl, hblanks, hlast⟩ := h pair hpair
  rw [blankPair_behind session_name hblanks, spaced_behind session_name hblanks (hlast.imp_left fun hnil => ⟨hnil, rfl⟩)]

/-- What can be made of the text behind the name, by `cookieValue` alone. -/
theorem searched_useless {b : Option Bytes} :
    (b.getD [] ≠ [] → kSessionTokenCharacters < (b.getD []).length) ↔
      ∀ value, b = some value → value = [] ∨ kSessionTokenCharacters < value.length := by
  cases b with
  | none => simp
  | some w => simp [or_iff_not_imp_left]

/-- What the readers find agrees just if the texts at the two places do. -/
theorem agree_iff_use (hnul : 0 ∉ cookies) : ReadersAgree cookies ↔ SameUse cookies := by
  have hagree : ReadersAgree cookies ↔
      ((sessionCookie (some cookies)).found = true → (sessionCookie (some cookies)).overflow = false →
        cookieValue (some cookies) session = (sessionCookie (some cookies)).view) ∧
      (cookieValue (some cookies) session ≠ [] → (cookieValue (some cookies) session).length ≤ kSessionTokenCharacters →
        (sessionCookie (some cookies)).found = true ∧ (sessionCookie (some cookies)).overflow = false ∧
          (sessionCookie (some cookies)).view = cookieValue (some cookies) session) :=
    ⟨fun h => ⟨h.bounded, h.searched⟩, fun h => ⟨h.1, h.2⟩⟩
  rw [hagree, sessionCookie_eq, cookieValue_eq hnul, SameUse]
  generalize behindBlanks cookies = a
  generalize behindSpace cookies = b
  cases a with
  | none =>
    have huseless := searched_useless (b := b)
    simp only [Option.map_none, Option.getD_none, Bool.false_eq_true, false_and, imp_false, not_le, false_imp_iff, true_and,
      reduceCtorEq, forall_true_left, false_or, implies_true] at huseless ⊢
    rw [huseless]
    refine ⟨Or.inr, fun h => h.elim (fun hb value hvalue => ?_) id⟩
    rw [← hb] at hvalue
    cases hvalue
  | some v =>
    by_cases hlong : kSessionTokenCharacters < v.length
    · have huseless := searched_useless (b := b)
      have hne : v ≠ [] := fun hnil => by simp [hnil] at hlong
      have hvalue : boundedValue kSessionTokenCharacters v = { found := true, overflow := true } := if_pos hlong
      simp only [Option.map_some, Option.getD_some, hvalue, Bool.true_eq_false, false_and, and_false, imp_false, not_le,
        false_imp_iff, implies_true, true_and, Option.some.injEq, hne, forall_eq', hlong, false_or] at huseless ⊢
      rw [huseless]
      refine ⟨Or.inr, fun h => h.elim (fun hb value hvalue => ?_) id⟩
      rw [← hb] at hvalue
      exact Or.inr (Option.some.inj hvalue ▸ hlong)
    · have hvalue : boundedValue kSessionTokenCharacters v = { storage := v, found := true } := if_neg hlong
      simp only [Option.map_some, Option.getD_some, hvalue, BoundedCookieValue.view, Bool.false_eq_true, if_false,
        forall_true_left, true_and, Option.some.injEq, forall_eq', hlong, false_and, or_false]
      cases b with
      | none => simp [eq_comm]
      | some w =>
        simp only [Option.getD_some, Option.some.injEq, reduceCtorEq, and_false, or_false]
        exact ⟨fun h => h.1.symm, fun h => ⟨h.symm, fun _ _ => h⟩⟩

/-- **When the readers agree.** -/
theorem readers_agree_iff (cookies : Bytes) (hnul : 0 ∉ cookies) :
    ReadersAgree cookies ↔ SamePlace cookies ∨ SameUse cookies := by
  rw [agree_iff_use hnul]
  exact ⟨Or.inr, fun h => h.elim (fun hplace => Or.inl hplace.use) id⟩

/-- Two headers: the name behind a tab, and the name in the value of another cookie. -/
def tabbed : Bytes := ascii "a=1;\tpm_session=X"
def nested : Bytes := ascii "a=b pm_session=X"

theorem pairs_tabbed : pairs tabbed = [ascii "a=1", ascii "\tpm_session=X"] := by
  have htabbed : tabbed = ascii "a=1" ++ 59 :: ascii "\tpm_session=X" := by decide
  rw [htabbed, pairs_cons (by decide), pairs_last (by decide)]

/-- A header whose only pair leads. -/
theorem readers_agree_space : ReadersAgree (ascii "a=1; pm_session=X") := by
  have hpairs : pairs (ascii "a=1; pm_session=X") = [ascii "a=1", ascii " pm_session=X"] := by
    have hheader : ascii "a=1; pm_session=X" = ascii "a=1" ++ 59 :: ascii " pm_session=X" := by decide
    rw [hheader, pairs_cons (by decide), pairs_last (by decide)]
  refine (readers_agree_iff (ascii "a=1; pm_session=X") (by decide)).mpr (Or.inl fun pair hpair => ?_)
  have hfirst : [ascii "a=1", ascii " pm_session=X"].find?
      (fun p => (blankPair session p).isSome || (spaced session true p).isSome) = some (ascii " pm_session=X") := by
    decide
  rw [hpairs, hfirst] at hpair
  obtain rfl := Option.some.inj hpair
  exact ⟨[32], [88], by decide +kernel, by decide +kernel, Or.inr rfl⟩

/-- **The readers disagree**, in either direction. -/
theorem readers_disagree :
    ¬ (∀ cookies, 0 ∉ cookies → (sessionCookie (some cookies)).found = true →
      (sessionCookie (some cookies)).overflow = false →
        cookieValue (some cookies) session = (sessionCookie (some cookies)).view) ∧
    ¬ ∀ cookies, 0 ∉ cookies → cookieValue (some cookies) session ≠ [] →
      (cookieValue (some cookies) session).length ≤ kSessionTokenCharacters →
        (sessionCookie (some cookies)).view = cookieValue (some cookies) session := by
  constructor
  · intro h
    have hagree := h tabbed (by decide)
    rw [sessionCookie_eq, cookieValue_eq (by decide), behindBlanks, behindSpace, pairs_tabbed] at hagree
    exact absurd (hagree (by decide) (by decide)) (by decide)
  · intro h
    have hagree := h nested (by decide)
    rw [sessionCookie_eq, cookieValue_eq (by decide), behindBlanks, behindSpace, pairs_last (by decide)] at hagree
    exact absurd (hagree (by decide) (by decide)) (by decide)

end PowerMonitor.Api.Cookies
