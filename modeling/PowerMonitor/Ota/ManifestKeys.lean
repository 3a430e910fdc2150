import PowerMonitor.Lib.JsonGrammar
import PowerMonitor.Ota.ManifestV2

/-! # The keys of the manifest

`uniqueTopLevelKeys` goes through the document once and counts the open braces and brackets. A string at depth one with
a colon after it is a key of the manifest: it must have no escape and not have been seen before.

* `scanKeys_nested`: what is nested in a member is passed over.
* `scanKeys_members`: the members leave their names, if these are new and without escapes.
* `uniqueTopLevelKeys_iff`: **an object passes if and only if its names are all different and have no escapes.** -/

namespace PowerMonitor.Ota.ManifestKeys

open PowerMonitor.Lib.Binary PowerMonitor.Lib.Scan PowerMonitor.Lib.JsonGrammar

/-- A string up to its closing quote: the text, whether it has an escape, and what follows. -/
def scanString : Bytes → Option (Bytes × Bool × Bytes)
  | [] => none
  | byte :: rest =>
    if byte = 92 then
      match rest with
      | [] => none
      | escaped :: rest => (scanString rest).map fun (token, _, after) => (92 :: escaped :: token, true, after)
    else if byte = 34 then some ([], false, rest)
    else (scanString rest).map fun (token, escaped, after) => (byte :: token, escaped, after)

theorem scanString_length {s token after : Bytes} {escaped : Bool} (h : scanString s = some (token, escaped, after)) :
    after.length < s.length := by
  fun_induction scanString s generalizing token escaped with
  | case1 => cases h
  | case2 => cases h
  | case3 b rest ih =>
    obtain ⟨⟨token', escaped', after'⟩, hscan, heq⟩ := Option.map_eq_some_iff.mp h
    obtain ⟨-, -, rfl⟩ := heq
    have := ih hscan
    simp only [List.length_cons]
    omega
  | case4 => simp_all
  | case5 b rest hbackslash hquote ih =>
    obtain ⟨⟨token', escaped', after'⟩, hscan, heq⟩ := Option.map_eq_some_iff.mp h
    obtain ⟨-, -, rfl⟩ := heq
    have := ih hscan
    simp only [List.length_cons]
    omega

/-- The rest of the document, at a depth, after some keys. -/
def scanKeys (depth : ℕ) (keys : List Bytes) : Bytes → Bool
  | [] => depth == 0
  | byte :: rest =>
    if byte = 123 ∨ byte = 91 then scanKeys (depth + 1) keys rest
    else if byte = 125 ∨ byte = 93 then
      if depth = 0 then false else scanKeys (depth - 1) keys rest
    else if byte ≠ 34 then scanKeys depth keys rest
    else
      match _hscan : scanString rest with
      | none => false
      | some (token, escaped, after) =>
        if depth = 1 ∧ (after.dropWhile isSpace).head? = some 58 then
          if escaped ∨ token ∈ keys then false else scanKeys depth (keys ++ [token]) after
        else scanKeys depth keys after
termination_by text => text.length
decreasing_by
  all_goals simp only [List.length_cons]
  all_goals try have := scanString_length _hscan
  all_goals omega

def uniqueTopLevelKeys (json : Bytes) : Bool := scanKeys 0 [] json

/-! ### Strings -/

/-- Bytes that are neither quotes nor backslashes belong to the string. -/
theorem scanString_plain {s : Bytes} (h : ∀ b ∈ s, b ≠ 34 ∧ b ≠ 92) (rest : Bytes) :
    scanString (s ++ rest) = (scanString rest).map fun (token, escaped, after) => (s ++ token, escaped, after) := by
  induction s with
  | nil => simp
  | cons b s ih =>
    obtain ⟨hquote, hbackslash⟩ := h b (by simp)
    rw [List.cons_append, scanString.eq_def]
    dsimp only
    rw [if_neg hbackslash, if_neg hquote, ih fun c hc => h c (by simp [hc]), Option.map_map]
    rfl

/-- A string is read to its closing quote; the escape is seen if there is one. -/
theorem scanString_characters {s : Bytes} (h : Characters s) (rest : Bytes) :
    scanString (s ++ 34 :: rest) = some (s, decide (92 ∈ s), rest) := by
  induction h with
  | nil =>
    rw [List.nil_append, scanString.eq_def]
    rfl
  | @plain b s visible quote backslash _ ih =>
    rw [List.cons_append, scanString.eq_def]
    dsimp only
    rw [if_neg backslash, if_neg quote, ih]
    simp [Ne.symm backslash]
  | @short c s escape _ ih =>
    rw [List.cons_append, List.cons_append, scanString.eq_def]
    dsimp only
    rw [if_pos rfl, ih]
    simp
  | @unicode hex s length digits _ ih =>
    have hhex : ∀ b ∈ hex, b ≠ 34 ∧ b ≠ 92 := fun b hb => by
      constructor <;> (rintro rfl; exact absurd (digits _ hb) (by decide))
    rw [List.cons_append, List.cons_append, List.append_assoc, scanString.eq_def]
    dsimp only
    rw [if_pos rfl, scanString_plain hhex, ih]
    simp

/-! ### Steps -/

/-- A colon comes next, after white space. -/
def ColonNext (rest : Bytes) : Prop := (rest.dropWhile isSpace).head? = some 58

theorem scanKeys_open {b : UInt8} (hb : b = 123 ∨ b = 91) (depth : ℕ) (keys : List Bytes) (rest : Bytes) :
    scanKeys depth keys (b :: rest) = scanKeys (depth + 1) keys rest := by
  rw [scanKeys, if_pos hb]

theorem scanKeys_close {b : UInt8} (hb : b = 125 ∨ b = 93) (depth : ℕ) (keys : List Bytes) (rest : Bytes) :
    scanKeys (depth + 1) keys (b :: rest) = scanKeys depth keys rest := by
  have hopen : ¬ (b = 123 ∨ b = 91) := by rcases hb with rfl | rfl <;> decide
  rw [scanKeys, if_neg hopen, if_pos hb, if_neg (Nat.succ_ne_zero depth), Nat.add_sub_cancel]

theorem scanKeys_plain {s : Bytes} (hs : ∀ b ∈ s, b ∉ structural) (depth : ℕ) (keys : List Bytes) (rest : Bytes) :
    scanKeys depth keys (s ++ rest) = scanKeys depth keys rest := by
  induction s with
  | nil => rfl
  | cons b s ih =>
    have hb := hs b (by simp)
    simp only [structural, List.mem_cons, List.not_mem_nil, or_false, not_or] at hb
    rw [List.cons_append, scanKeys, if_neg (by simp [hb]), if_neg (by simp [hb]), if_pos hb.2.2.2.2]
    exact ih fun c hc => hs c (by simp [hc])

/-- A string that is no key. -/
theorem scanKeys_string {s : Bytes} (hs : Characters s) {depth : ℕ} {rest : Bytes} (h : ¬ (depth = 1 ∧ ColonNext rest))
    (keys : List Bytes) : scanKeys depth keys (34 :: (s ++ 34 :: rest)) = scanKeys depth keys rest := by
  have hstring := scanString_characters hs rest
  rw [scanKeys, if_neg (by decide), if_neg (by decide), if_neg (by decide)]
  split
  · next hscan => rw [hstring] at hscan; cases hscan
  · next hscan =>
    rw [hstring] at hscan
    cases hscan
    exact if_neg h

/-- A key. -/
theorem scanKeys_key {s : Bytes} (hs : Characters s) {rest : Bytes} (h : ColonNext rest) (keys : List Bytes) :
    scanKeys 1 keys (34 :: (s ++ 34 :: rest)) =
      if 92 ∈ s ∨ s ∈ keys then false else scanKeys 1 (keys ++ [s]) rest := by
  have hstring := scanString_characters hs rest
  rw [scanKeys, if_neg (by decide), if_neg (by decide), if_neg (by decide)]
  split
  · next hscan => rw [hstring] at hscan; cases hscan
  · next hscan =>
    rw [hstring] at hscan
    cases hscan
    rw [if_pos ⟨rfl, h⟩]
    simp only [decide_eq_true_eq]

/-! ### Documents -/

theorem scanKeys_separator {b : UInt8} (hb : b ∉ structural) (depth : ℕ) (keys : List Bytes) (rest : Bytes) :
    scanKeys depth keys (b :: rest) = scanKeys depth keys rest :=
  scanKeys_plain (s := [b]) (fun c hc => by rwa [List.mem_singleton.mp hc]) depth keys rest

/-- **What is nested in a member is passed over**, whatever its names and texts look like. -/
theorem scanKeys_nested {part : Part} {s : Bytes} (h : Derives part s) (depth : ℕ) (keys : List Bytes) (rest : Bytes) :
    scanKeys (depth + 2) keys (s ++ rest) = scanKeys (depth + 2) keys rest := by
  have hdepth (rest : Bytes) (depth : ℕ) : ¬ (depth + 2 = 1 ∧ ColonNext rest) := fun h => absurd h.1 (by omega)
  induction h generalizing depth rest with
  | literal h => exact scanKeys_plain (literal_plain h) _ _ _
  | number h => exact scanKeys_plain h.plain _ _ _
  | string h =>
    rw [List.cons_append, List.append_assoc]
    exact scanKeys_string h (hdepth _ _) keys
  | emptyArray h =>
    rw [List.cons_append, List.append_assoc, scanKeys_open (by simp), scanKeys_plain h.plain]
    exact scanKeys_close (by simp) _ _ _
  | array _ ih =>
    rw [List.cons_append, List.append_assoc, scanKeys_open (by simp), ih]
    exact scanKeys_close (by simp) _ _ _
  | emptyObject h =>
    rw [List.cons_append, List.append_assoc, scanKeys_open (by simp), scanKeys_plain h.plain]
    exact scanKeys_close (by simp) _ _ _
  | object _ ih =>
    rw [List.cons_append, List.append_assoc, scanKeys_open (by simp), ih]
    exact scanKeys_close (by simp) _ _ _
  | lastElement hw _ hw' ih =>
    simp only [List.append_assoc]
    rw [scanKeys_plain hw.plain, ih, scanKeys_plain hw'.plain]
  | element hw _ hw' _ ihv ihs =>
    simp only [List.append_assoc, List.cons_append]
    rw [scanKeys_plain hw.plain, ihv, scanKeys_plain hw'.plain, scanKeys_separator (by decide), ihs]
  | lastMember hw hname hw₁ hw₂ _ hw' ih =>
    simp only [List.append_assoc, List.cons_append]
    rw [scanKeys_plain hw.plain, scanKeys_string hname (hdepth _ _), scanKeys_plain hw₁.plain,
      scanKeys_separator (by decide), scanKeys_plain hw₂.plain, ih, scanKeys_plain hw'.plain]
  | member hw hname hw₁ hw₂ _ hw' _ ihv ihs =>
    simp only [List.append_assoc, List.cons_append]
    rw [scanKeys_plain hw.plain, scanKeys_string hname (hdepth _ _), scanKeys_plain hw₁.plain,
      scanKeys_separator (by decide), scanKeys_plain hw₂.plain, ihv, scanKeys_plain hw'.plain,
      scanKeys_separator (by decide), ihs]

/-- A member's value, which no colon follows. -/
theorem scanKeys_value {s : Bytes} (h : Derives .value s) (keys : List Bytes) {rest : Bytes} (hrest : ¬ ColonNext rest) :
    scanKeys 1 keys (s ++ rest) = scanKeys 1 keys rest := by
  cases h with
  | literal h => exact scanKeys_plain (literal_plain h) _ _ _
  | number h => exact scanKeys_plain h.plain _ _ _
  | string h =>
    rw [List.cons_append, List.append_assoc]
    exact scanKeys_string h (fun hcolon => hrest hcolon.2) keys
  | emptyArray h =>
    rw [List.cons_append, List.append_assoc, scanKeys_open (by simp), scanKeys_plain h.plain]
    exact scanKeys_close (by simp) _ _ _
  | array h =>
    rw [List.cons_append, List.append_assoc, scanKeys_open (by simp), scanKeys_nested h]
    exact scanKeys_close (by simp) _ _ _
  | emptyObject h =>
    rw [List.cons_append, List.append_assoc, scanKeys_open (by simp), scanKeys_plain h.plain]
    exact scanKeys_close (by simp) _ _ _
  | object h =>
    rw [List.cons_append, List.append_assoc, scanKeys_open (by simp), scanKeys_nested h]
    exact scanKeys_close (by simp) _ _ _

/-! ### The members of the manifest -/

theorem colonNext_white {w : Bytes} (hw : White w) (rest : Bytes) : ColonNext (w ++ rest) ↔ ColonNext rest := by
  unfold ColonNext
  rw [List.dropWhile_append_of_pos fun b hb => by rcases hw b hb with rfl | rfl | rfl | rfl <;> decide]

/-- A colon comes next only if it is there. -/
theorem not_colonNext {b : UInt8} (hb : b = 44 ∨ b = 125) (rest : Bytes) : ¬ ColonNext (b :: rest) := by
  unfold ColonNext
  rcases hb with rfl | rfl <;> simp [isSpace]

/-- **One member**: its name is a new key without escapes, and the rest is read with it. -/
theorem scanKeys_member {w name w₁ w₂ v w' : Bytes} (hw : White w) (hname : Characters name) (hw₁ : White w₁)
    (hw₂ : White w₂) (hv : Derives .value v) (hw' : White w') (keys : List Bytes) {rest : Bytes}
    (hrest : ¬ ColonNext rest) :
    scanKeys 1 keys (w ++ 34 :: (name ++ 34 :: (w₁ ++ 58 :: (w₂ ++ (v ++ (w' ++ rest)))))) =
      if 92 ∈ name ∨ name ∈ keys then false else scanKeys 1 (keys ++ [name]) rest := by
  have hcolon : ColonNext (w₁ ++ 58 :: (w₂ ++ (v ++ (w' ++ rest)))) := (colonNext_white hw₁ _).mpr rfl
  rw [scanKeys_plain hw.plain, scanKeys_key hname hcolon, scanKeys_plain hw₁.plain, scanKeys_separator (by decide),
    scanKeys_plain hw₂.plain, scanKeys_value hv _ fun h => hrest ((colonNext_white hw' rest).mp h),
    scanKeys_plain hw'.plain]

/-- Names that are new after some keys, different from each other, and without escapes. -/
structure Fresh (keys names : List Bytes) : Prop where
  plain : ∀ name ∈ names, 92 ∉ name
  new : ∀ name ∈ names, name ∉ keys
  nodup : names.Nodup

theorem fresh_cons {keys names : List Bytes} {name : Bytes} :
    Fresh keys (name :: names) ↔ ¬ (92 ∈ name ∨ name ∈ keys) ∧ Fresh (keys ++ [name]) names := by
  constructor
  · rintro ⟨hplain, hnew, hnodup⟩
    rw [List.nodup_cons] at hnodup
    refine ⟨not_or.mpr ⟨hplain name (by simp), hnew name (by simp)⟩,
      fun n hn => hplain n (by simp [hn]), fun n hn hmem => ?_, hnodup.2⟩
    rcases List.mem_append.mp hmem with hmem | hmem
    · exact hnew n (by simp [hn]) hmem
    · exact hnodup.1 (List.mem_singleton.mp hmem ▸ hn)
  · rintro ⟨hname, hplain, hnew, hnodup⟩
    obtain ⟨hescape, hkeys⟩ := not_or.mp hname
    refine ⟨fun n hn => ?_, fun n hn hmem => ?_, List.nodup_cons.mpr ⟨fun hmem => hnew name hmem (by simp), hnodup⟩⟩
    · rcases List.mem_cons.mp hn with rfl | hn
      · exact hescape
      · exact hplain n hn
    · rcases List.mem_cons.mp hn with rfl | hn
      · exact hkeys hmem
      · exact hnew n hn (List.mem_append_left _ hmem)

theorem fresh_nil (keys : List Bytes) : Fresh keys [] := ⟨by simp, by simp, List.nodup_nil⟩

/-- **The members leave their names**, if these are fresh. -/
theorem scanKeys_members {names : List Bytes} {s : Bytes} (h : Derives (.members names) s) (keys : List Bytes)
    {rest : Bytes} (hrest : ¬ ColonNext rest) :
    scanKeys 1 keys (s ++ rest) = true ↔ Fresh keys names ∧ scanKeys 1 (keys ++ names) rest = true := by
  generalize hpart : Part.members names = part at h
  induction h generalizing names keys with
  | @lastMember w name w₁ w₂ v w' hw hname hw₁ hw₂ hv hw' _ =>
    obtain rfl : names = [name] := by simpa using hpart
    simp only [List.append_assoc, List.cons_append]
    rw [scanKeys_member hw hname hw₁ hw₂ hv hw' keys hrest, fresh_cons]
    by_cases hfresh : 92 ∈ name ∨ name ∈ keys
    · simp [hfresh]
    · simp [hfresh, fresh_nil]
  | @member w name w₁ w₂ v w' s later hw hname hw₁ hw₂ hv hw' _ _ ih =>
    obtain rfl : names = name :: later := by simpa using hpart
    simp only [List.append_assoc, List.cons_append]
    rw [scanKeys_member hw hname hw₁ hw₂ hv hw' keys (not_colonNext (by simp) _), fresh_cons]
    by_cases hfresh : 92 ∈ name ∨ name ∈ keys
    · simp [hfresh]
    · rw [if_neg hfresh, scanKeys_separator (by decide), ih _ rfl, List.append_assoc]
      simp [hfresh]
  | _ => cases hpart

/-- **An object passes if and only if its names are all different and have no escapes.** What is nested in its members
has no part in it. -/
theorem uniqueTopLevelKeys_iff (names : List Bytes) (json : Bytes) (h : Object names json) :
    uniqueTopLevelKeys json = true ↔ (∀ name ∈ names, 92 ∉ name) ∧ names.Nodup := by
  have hend {w' : Bytes} (hw' : White w') (keys : List Bytes) : scanKeys 1 keys (125 :: w') = true := by
    have hnil := scanKeys_plain hw'.plain 0 keys []
    rw [List.append_nil] at hnil
    rw [scanKeys_close (by simp), hnil, scanKeys]
    rfl
  have hfresh : Fresh [] names ↔ (∀ name ∈ names, 92 ∉ name) ∧ names.Nodup :=
    ⟨fun h => ⟨h.plain, h.nodup⟩, fun h => ⟨h.1, by simp, h.2⟩⟩
  unfold uniqueTopLevelKeys
  cases h with
  | empty hw hs hw' =>
    rw [scanKeys_plain hw.plain, scanKeys_open (by simp), scanKeys_plain hs.plain, hend hw']
    simp
  | members hw hs hw' =>
    rw [scanKeys_plain hw.plain, scanKeys_open (by simp), scanKeys_members hs [] (not_colonNext (by simp) _), hend hw',
      hfresh]
    simp

theorem white_nil : White [] := fun b hb => by cases hb

theorem characters_visible {s : Bytes} (h : ∀ b ∈ s, 32 ≤ b ∧ b ≠ 34 ∧ b ≠ 92) : Characters s := by
  induction s with
  | nil => exact .nil
  | cons b s ih =>
    obtain ⟨hvisible, hquote, hbackslash⟩ := h b (by simp)
    exact .plain hvisible hquote hbackslash (ih fun c hc => h c (by simp [hc]))

/-- A name again inside a member, and a text that looks like a key. -/
theorem uniqueTopLevelKeys_iff_nested :
    uniqueTopLevelKeys (ascii "\x7b\"a\":\x7b\"a\":1\x7d,\"b\":[\"\\\"a\\\":\"]\x7d") = true := by
  have ha : Characters (ascii "a") := characters_visible (by decide +kernel)
  have hb : Characters (ascii "b") := characters_visible (by decide +kernel)
  have hone : Derives .value (ascii "1") := .number ⟨[], ascii "1", [], [], by decide, Or.inl rfl,
    .positive (by unfold Lib.Decimal.Digits; decide +kernel) (by decide), Or.inl rfl, Or.inl rfl⟩
  have htext : Characters (ascii "\\\"a\\\":") := .short (by decide) (.plain (by decide) (by decide) (by decide)
    (.short (by decide) (.plain (by decide) (by decide) (by decide) .nil)))
  have hinner : Derives .value _ := .object (.lastMember white_nil ha white_nil white_nil hone white_nil)
  have harray : Derives .value _ := .array (.lastElement white_nil (.string htext) white_nil)
  have hobject := Object.members white_nil (.member white_nil ha white_nil white_nil hinner white_nil
    (.lastMember white_nil hb white_nil white_nil harray white_nil)) white_nil
  exact (uniqueTopLevelKeys_iff [ascii "a", ascii "b"] _ hobject).mpr (by decide)

end PowerMonitor.Ota.ManifestKeys
