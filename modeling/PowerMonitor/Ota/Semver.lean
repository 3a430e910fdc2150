import PowerMonitor.Lib.Decimal
import PowerMonitor.Lib.Delimited
import PowerMonitor.Ota.ManifestV2

/-! # Semantic versions

The grammar of Semantic Versioning 2.0: three numerals, then optional identifiers of a pre-release after a dash and of
a build after a plus sign. `parseSemver` reads a version back from its text (`parseSemver_text`) and accepts nothing
else (`exists_version`), apart from its bounds: 80 characters, and numbers of 32 bits. -/

namespace PowerMonitor.Ota.Semver

open PowerMonitor.Lib.Binary PowerMonitor.Lib.Scan PowerMonitor.Lib.Decimal PowerMonitor.Ota.ManifestV2

/-! ### The grammar -/

/-- A character of an identifier: a letter, a digit or a dash. -/
def IdentifierCharacter (b : UInt8) : Prop := (isAlphanumeric b || b == 45) = true

/-- An identifier with a character that is not a digit. -/
def AlphanumericIdentifier (s : Bytes) : Prop := (∀ b ∈ s, IdentifierCharacter b) ∧ ∃ b ∈ s, isDigit b = false

def PrereleaseIdentifier (s : Bytes) : Prop := AlphanumericIdentifier s ∨ Numeral s

def BuildIdentifier (s : Bytes) : Prop := AlphanumericIdentifier s ∨ s ≠ [] ∧ Digits s

/-- A version, by the texts of its parts. No identifiers stand for an absent pre-release or build. -/
structure Version where
  major : Bytes
  minor : Bytes
  patch : Bytes
  prerelease : List Bytes
  build : List Bytes
  major_numeral : Numeral major
  minor_numeral : Numeral minor
  patch_numeral : Numeral patch
  prerelease_identifier : ∀ s ∈ prerelease, PrereleaseIdentifier s
  build_identifier : ∀ s ∈ build, BuildIdentifier s

namespace Version

def core (v : Version) : List Bytes := [v.major, v.minor, v.patch]

/-- A mark and the identifiers after it, joined by dots, if there are any. -/
def suffix (mark : UInt8) (identifiers : List Bytes) : Bytes :=
  if identifiers = [] then [] else mark :: [46].intercalate identifiers

/-- The text of a version. -/
def text (v : Version) : Bytes := [46].intercalate v.core ++ suffix 45 v.prerelease ++ suffix 43 v.build

/-- What the device keeps of a version. -/
def parsed (v : Version) : ManifestV2.Semver := { core := v.core.map decimalValue, prerelease := v.prerelease }

/-- The bounds of the device: 80 characters, and numbers of 32 bits. -/
structure Fits (v : Version) : Prop where
  length : v.text.length ≤ 80
  numbers : ∀ n ∈ v.core, decimalValue n < 2 ^ 32

end Version

/-! ### Identifiers -/

theorem not_all_isDigit {s : Bytes} : ¬ s.all isDigit = true ↔ ∃ b ∈ s, isDigit b = false := by
  simp

theorem identifierCharacter_of_digit {b : UInt8} (h : isDigit b = true) : IdentifierCharacter b := by
  simp [IdentifierCharacter, isAlphanumeric, h]

/-- **The identifiers of a pre-release.** -/
theorem validIdentifier_prerelease (s : Bytes) : validIdentifier s true = true ↔ PrereleaseIdentifier s := by
  unfold validIdentifier PrereleaseIdentifier
  rw [numeral_iff]
  by_cases hdigits : s.all isDigit = true
  · have halpha : ¬ AlphanumericIdentifier s := fun h => not_all_isDigit.mpr h.2 hdigits
    have hcharacters : s.all (fun b => isAlphanumeric b || b == 45) = true :=
      List.all_eq_true.mpr fun b hb => identifierCharacter_of_digit (List.all_eq_true.mp hdigits b hb)
    have hd : Digits s := List.all_eq_true.mp hdigits
    simp [hdigits, hcharacters, halpha, hd]
  · have hexists := not_all_isDigit.mp hdigits
    have hd : ¬ Digits s := fun h => hdigits (List.all_eq_true.mpr h)
    have hne : s ≠ [] := List.ne_nil_of_mem hexists.choose_spec.1
    simp [hdigits, hd, hne, AlphanumericIdentifier, IdentifierCharacter, hexists]

/-- **The identifiers of a build.** -/
theorem validIdentifier_build (s : Bytes) : validIdentifier s false = true ↔ BuildIdentifier s := by
  unfold validIdentifier BuildIdentifier
  by_cases hdigits : s.all isDigit = true
  · have halpha : ¬ AlphanumericIdentifier s := fun h => not_all_isDigit.mpr h.2 hdigits
    have hcharacters : s.all (fun b => isAlphanumeric b || b == 45) = true :=
      List.all_eq_true.mpr fun b hb => identifierCharacter_of_digit (List.all_eq_true.mp hdigits b hb)
    have hd : Digits s := List.all_eq_true.mp hdigits
    simp [hcharacters, halpha, hd]
  · have hexists := not_all_isDigit.mp hdigits
    have hd : ¬ Digits s := fun h => hdigits (List.all_eq_true.mpr h)
    have hne : s ≠ [] := List.ne_nil_of_mem hexists.choose_spec.1
    simp [hd, hne, AlphanumericIdentifier, IdentifierCharacter, hexists]

theorem identifierCharacter_marks {b : UInt8} (h : IdentifierCharacter b) : b ≠ 43 ∧ b ≠ 46 := by
  constructor <;> (rintro rfl; exact absurd h (by unfold IdentifierCharacter; decide))

theorem isDigit_marks {b : UInt8} (h : isDigit b = true) : b ≠ 43 ∧ b ≠ 45 ∧ b ≠ 46 := by
  refine ⟨?_, ?_, ?_⟩ <;> (rintro rfl; revert h; decide)

theorem PrereleaseIdentifier.character {s : Bytes} (h : PrereleaseIdentifier s) : ∀ b ∈ s, IdentifierCharacter b := by
  rcases h with h | h
  · exact h.1
  · exact fun b hb => identifierCharacter_of_digit (h.digits b hb)

theorem BuildIdentifier.character {s : Bytes} (h : BuildIdentifier s) : ∀ b ∈ s, IdentifierCharacter b := by
  rcases h with h | ⟨-, h⟩
  · exact h.1
  · exact fun b hb => identifierCharacter_of_digit (h b hb)

/-! ### Numerals -/

/-- **A component is a numeral of 32 bits**; ten digits are enough for one. -/
theorem parseUnsignedComponent_eq_some (s : Bytes) (n : ℕ) :
    parseUnsignedComponent s = some n ↔ Numeral s ∧ decimalValue s < 2 ^ 32 ∧ n = decimalValue s := by
  unfold parseUnsignedComponent
  rw [numeral_iff]
  constructor
  · intro h
    split at h
    · cases h
    · next hvalid =>
      simp only [not_or, not_and, not_lt, Decidable.not_not] at hvalid
      obtain ⟨hne, -, hzero, hdigits, hvalue⟩ := hvalid
      refine ⟨⟨hne, List.all_eq_true.mp hdigits, ?_⟩, by omega, (Option.some.inj h).symm⟩
      have hpositive := List.length_pos_of_ne_nil hne
      by_cases hlength : s.length = 1
      · exact Or.inl hlength
      · exact Or.inr (hzero (by omega))
  · rintro ⟨hnumeral, hvalue, rfl⟩
    obtain ⟨hne, hdigits, hzero⟩ := hnumeral
    have hlength : s.length ≤ 10 := by
      cases s with
      | nil => simp
      | cons b s =>
        by_contra hlong
        rw [List.length_cons] at hlong hzero
        have hfirst : b ≠ 48 := by simpa using hzero.resolve_left (by omega)
        have hpow : 10 ^ 10 ≤ 10 ^ s.length := Nat.pow_le_pow_right (by omega) (by omega)
        have hge := pow_le_decimalValue (s := s) (hdigits b (by simp)) hfirst
        omega
    rw [if_neg]
    simp only [not_or, not_and, not_lt, Decidable.not_not]
    refine ⟨hne, hlength, fun hlong => hzero.resolve_left (by omega), List.all_eq_true.mpr hdigits, by omega⟩

/-! ### The parser -/

theorem cutAt_eq : ManifestV2.cutAt = Lib.Delimited.cutAt (α := UInt8) := rfl

/-- Identifiers are split at the dots. -/
theorem splitIdentifiers_eq_some (s : Bytes) (prerelease : Bool) (identifiers : List Bytes) :
    splitIdentifiers s prerelease = some identifiers ↔
      identifiers = s.splitOn 46 ∧ ∀ i ∈ identifiers, validIdentifier i prerelease = true := by
  unfold splitIdentifiers
  dsimp only
  split
  · next h =>
    rw [Option.some.injEq]
    exact ⟨fun he => he ▸ ⟨rfl, List.all_eq_true.mp h⟩, fun he => he.1.symm⟩
  · next h =>
    constructor
    · nofun
    · rintro ⟨rfl, hvalid⟩
      exact absurd (List.all_eq_true.mpr hvalid) h

/-- Identifiers joined by dots, if there are any. -/
def joined (identifiers : List Bytes) : Option Bytes :=
  if identifiers = [] then none else some ([46].intercalate identifiers)

def parseBuild : Option Bytes → Option Unit
  | none => some ()
  | some build => if build.contains 43 then none else (splitIdentifiers build false).map fun _ => ()

def parsePrerelease : Option Bytes → Option (List Bytes)
  | none => some []
  | some suffix => splitIdentifiers suffix true

def parseCore (core : Bytes) : Option (List ℕ) :=
  if (core.splitOn 46).length ≠ 3 then none else (core.splitOn 46).mapM parseUnsignedComponent

/-- The parts of `parseSemver`. -/
theorem parseSemver_eq (s : Bytes) : parseSemver s = if s = [] ∨ s.length > 80 then none
    else (parseBuild (ManifestV2.cutAt 43 s).2).bind fun _ =>
      (parsePrerelease (ManifestV2.cutAt 45 (ManifestV2.cutAt 43 s).1).2).bind fun prerelease =>
        (parseCore (ManifestV2.cutAt 45 (ManifestV2.cutAt 43 s).1).1).map fun core => ⟨core, prerelease⟩ := by
  by_cases hbound : s = [] ∨ s.length > 80
  · simp [parseSemver, hbound]
  · rcases h43 : ManifestV2.cutAt 43 s with ⟨precedence, build⟩
    rcases h45 : ManifestV2.cutAt 45 precedence with ⟨core, suffix⟩
    rw [if_neg hbound]
    have hcore (prerelease : List Bytes) : (if (core.splitOn 46).length = 3
        then ((core.splitOn 46).mapM parseUnsignedComponent).bind fun core => some (⟨core, prerelease⟩ : ManifestV2.Semver)
        else none) = (parseCore core).map fun core => ⟨core, prerelease⟩ := by
      unfold parseCore
      split <;> simp_all [Option.map_eq_bind]
    cases build with
    | none => cases suffix <;> simp [parseSemver, h43, h45, hbound, hcore, parseBuild, parsePrerelease]
    | some build =>
      by_cases hplus : 43 ∈ build
      · simp [parseSemver, h43, hbound, parseBuild, hplus]
      · cases suffix <;>
          simp [parseSemver, h43, h45, hbound, hcore, parseBuild, parsePrerelease, hplus, Option.bind_map]

theorem eq_joined (s : Bytes) : some s = joined (s.splitOn 46) := by
  unfold joined
  rw [if_neg (List.splitOn_ne_nil 46 s), List.intercalate_splitOn]

theorem splitOn_intercalate_identifiers {identifiers : List Bytes} (h : ∀ i ∈ identifiers, ∀ b ∈ i, IdentifierCharacter b)
    (hne : identifiers ≠ []) : ([46].intercalate identifiers).splitOn 46 = identifiers :=
  List.splitOn_intercalate 46 (fun i hi hmem => (identifierCharacter_marks (h i hi 46 hmem)).2 rfl) hne

/-- **The pre-release** is given by its identifiers. -/
theorem parsePrerelease_eq_some (text : Option Bytes) (identifiers : List Bytes) :
    parsePrerelease text = some identifiers ↔
      text = joined identifiers ∧ ∀ i ∈ identifiers, PrereleaseIdentifier i := by
  constructor
  · intro h
    cases text with
    | none =>
      obtain rfl : [] = identifiers := Option.some.inj h
      exact ⟨rfl, by simp⟩
    | some suffix =>
      obtain ⟨rfl, hvalid⟩ := (splitIdentifiers_eq_some suffix true identifiers).mp h
      exact ⟨eq_joined suffix, fun i hi => (validIdentifier_prerelease i).mp (hvalid i hi)⟩
  · rintro ⟨rfl, hvalid⟩
    unfold joined
    split
    · next hnil => rw [hnil]; rfl
    · next hne =>
      refine (splitIdentifiers_eq_some _ true identifiers).mpr ⟨?_, fun i hi => (validIdentifier_prerelease i).mpr (hvalid i hi)⟩
      exact (splitOn_intercalate_identifiers (fun i hi => (hvalid i hi).character) hne).symm

theorem notMem_intercalate {identifiers : List Bytes} {c : UInt8} (h : ∀ i ∈ identifiers, c ∉ i) (hc : c ≠ 46) :
    c ∉ [46].intercalate identifiers := fun hmem => by
  rcases Lib.Delimited.mem_of_mem_intercalate hmem with rfl | ⟨i, hi, hmem⟩
  · exact hc rfl
  · exact h i hi hmem

/-- **The build** has identifiers, of which none is kept. -/
theorem parseBuild_eq_some (text : Option Bytes) :
    parseBuild text = some () ↔ ∃ identifiers, text = joined identifiers ∧ ∀ i ∈ identifiers, BuildIdentifier i := by
  constructor
  · intro h
    cases text with
    | none => exact ⟨[], rfl, by simp⟩
    | some build =>
      unfold parseBuild at h
      dsimp only at h
      split at h
      · cases h
      · obtain ⟨identifiers, hsplit, -⟩ := Option.map_eq_some_iff.mp h
        obtain ⟨rfl, hvalid⟩ := (splitIdentifiers_eq_some build false identifiers).mp hsplit
        exact ⟨_, eq_joined build, fun i hi => (validIdentifier_build i).mp (hvalid i hi)⟩
  · rintro ⟨identifiers, rfl, hvalid⟩
    unfold joined
    split
    · rfl
    · next hne =>
      have hplus : 43 ∉ [46].intercalate identifiers := notMem_intercalate
        (fun i hi hmem => (identifierCharacter_marks ((hvalid i hi).character 43 hmem)).1 rfl) (by decide)
      have hsplit : splitIdentifiers ([46].intercalate identifiers) false = some identifiers := by
        refine (splitIdentifiers_eq_some _ false identifiers).mpr ⟨?_, fun i hi => (validIdentifier_build i).mpr (hvalid i hi)⟩
        exact (splitOn_intercalate_identifiers (fun i hi => (hvalid i hi).character) hne).symm
      unfold parseBuild
      dsimp only
      rw [if_neg (by simpa using hplus), hsplit]
      rfl

theorem mapM_three {f : Bytes → Option ℕ} {a b c : Bytes} {values : List ℕ} :
    [a, b, c].mapM f = some values ↔ ∃ x y z, f a = some x ∧ f b = some y ∧ f c = some z ∧ values = [x, y, z] := by
  simp only [List.mapM_cons, List.mapM_nil]
  cases f a <;> cases f b <;> cases f c <;> simp [eq_comm]

/-- **The numbers** of a version, from its core. -/
theorem parseCore_eq_some (text : Bytes) (values : List ℕ) :
    parseCore text = some values ↔ ∃ a b c, text = [46].intercalate [a, b, c] ∧
      (∀ n ∈ [a, b, c], Numeral n ∧ decimalValue n < 2 ^ 32) ∧ values = [a, b, c].map decimalValue := by
  unfold parseCore
  constructor
  · intro h
    split at h
    · cases h
    · next hlength =>
      obtain ⟨a, b, c, hparts⟩ := List.length_eq_three.mp (not_not.mp hlength)
      rw [hparts, mapM_three] at h
      simp only [parseUnsignedComponent_eq_some] at h
      obtain ⟨x, y, z, ⟨ha, hx, rfl⟩, ⟨hb, hy, rfl⟩, ⟨hc, hz, rfl⟩, rfl⟩ := h
      refine ⟨a, b, c, by rw [← hparts, List.intercalate_splitOn], ?_, rfl⟩
      simp only [List.mem_cons, List.not_mem_nil, or_false, forall_eq_or_imp, forall_eq]
      exact ⟨⟨ha, hx⟩, ⟨hb, hy⟩, hc, hz⟩
  · rintro ⟨a, b, c, rfl, hnumbers, rfl⟩
    have hsplit : ([46].intercalate [a, b, c]).splitOn 46 = [a, b, c] :=
      List.splitOn_intercalate 46 (fun n hn hmem => (isDigit_marks ((hnumbers n hn).1.digits 46 hmem)).2.2 rfl) (by simp)
    rw [hsplit, if_neg (by simp), mapM_three]
    simp only [parseUnsignedComponent_eq_some]
    simp only [List.mem_cons, List.not_mem_nil, or_false, forall_eq_or_imp, forall_eq] at hnumbers
    obtain ⟨⟨ha, hx⟩, ⟨hb, hy⟩, hc, hz⟩ := hnumbers
    exact ⟨_, _, _, ⟨ha, hx, rfl⟩, ⟨hb, hy, rfl⟩, ⟨hc, hz, rfl⟩, rfl⟩

/-- A text is cut where its suffix starts. -/
theorem cutAt_eq_joined {mark : UInt8} {s head : Bytes} {identifiers : List Bytes} :
    ManifestV2.cutAt mark s = (head, joined identifiers) ↔ mark ∉ head ∧ s = head ++ Version.suffix mark identifiers := by
  rw [cutAt_eq]
  unfold joined Version.suffix
  constructor
  · intro h
    rcases Lib.Delimited.cutAt_cases mark s with ⟨hmem, hcut⟩ | ⟨head', tail, hmem, rfl, hcut⟩
    · rw [hcut, Prod.mk.injEq] at h
      obtain ⟨rfl, h⟩ := h
      split at h
      · next hnil => exact ⟨hmem, by rw [if_pos hnil, List.append_nil]⟩
      · cases h
    · rw [hcut, Prod.mk.injEq] at h
      obtain ⟨rfl, h⟩ := h
      split at h
      · cases h
      · next hne => exact ⟨hmem, by rw [if_neg hne, Option.some.inj h]⟩
  · rintro ⟨hmem, rfl⟩
    split
    · rw [List.append_nil, Lib.Delimited.cutAt_of_notMem hmem]
    · rw [Lib.Delimited.cutAt_append hmem]

theorem notMem_suffix {mark c : UInt8} {identifiers : List Bytes} (h : ∀ i ∈ identifiers, c ∉ i) (hmark : c ≠ mark)
    (hc : c ≠ 46) : c ∉ Version.suffix mark identifiers := by
  unfold Version.suffix
  split
  · exact List.not_mem_nil
  · rw [List.mem_cons, not_or]
    exact ⟨hmark, notMem_intercalate h hc⟩

/-- **The parser reads a version back from its text**, within the device's bounds. -/
theorem parseSemver_text (v : Version) (h : v.Fits) : parseSemver v.text = some v.parsed := by
  have hnumeral : ∀ n ∈ v.core, Numeral n := by
    simp [Version.core, v.major_numeral, v.minor_numeral, v.patch_numeral]
  have hcore {c : UInt8} (hc : isDigit c = false) (hdot : c ≠ 46) : c ∉ [46].intercalate v.core :=
    notMem_intercalate (fun n hn hmem => by simp [(hnumeral n hn).digits c hmem] at hc) hdot
  have hplus : 43 ∉ [46].intercalate v.core ++ Version.suffix 45 v.prerelease := by
    rw [List.mem_append, not_or]
    refine ⟨hcore (by decide) (by decide), notMem_suffix (fun i hi hmem => ?_) (by decide) (by decide)⟩
    exact (identifierCharacter_marks ((v.prerelease_identifier i hi).character 43 hmem)).1 rfl
  have h43 : ManifestV2.cutAt 43 v.text = ([46].intercalate v.core ++ Version.suffix 45 v.prerelease, joined v.build) :=
    cutAt_eq_joined.mpr ⟨hplus, rfl⟩
  have h45 : ManifestV2.cutAt 45 ([46].intercalate v.core ++ Version.suffix 45 v.prerelease) =
      ([46].intercalate v.core, joined v.prerelease) := cutAt_eq_joined.mpr ⟨hcore (by decide) (by decide), rfl⟩
  have hparse : parseCore ([46].intercalate v.core) = some (v.core.map decimalValue) := (parseCore_eq_some _ _).mpr
    ⟨v.major, v.minor, v.patch, rfl, fun n hn => ⟨hnumeral n hn, h.numbers n hn⟩, rfl⟩
  have hne : v.text ≠ [] := by
    obtain ⟨b, s, hmajor⟩ := List.exists_cons_of_ne_nil v.major_numeral.ne_nil
    simp [Version.text, Version.core, hmajor]
  rw [parseSemver_eq, if_neg (by simp [hne, h.length]), h43]
  dsimp only
  rw [h45, (parseBuild_eq_some _).mpr ⟨v.build, rfl, v.build_identifier⟩, Option.bind_some,
    (parsePrerelease_eq_some _ _).mpr ⟨rfl, v.prerelease_identifier⟩, Option.bind_some]
  dsimp only
  rw [hparse]
  rfl

/-- **What the parser accepts is the text of a version**, within the device's bounds. -/
theorem exists_version {s : Bytes} {semver : ManifestV2.Semver} (h : parseSemver s = some semver) :
    ∃ v : Version, v.Fits ∧ v.text = s ∧ v.parsed = semver := by
  rw [parseSemver_eq] at h
  split at h
  · cases h
  · next hbound =>
    rcases h43 : ManifestV2.cutAt 43 s with ⟨precedence, buildText⟩
    rcases h45 : ManifestV2.cutAt 45 precedence with ⟨core, suffixText⟩
    rw [h43, h45] at h
    obtain ⟨⟨⟩, hbuildText, h⟩ := Option.bind_eq_some_iff.mp h
    obtain ⟨prerelease, hsuffixText, h⟩ := Option.bind_eq_some_iff.mp h
    obtain ⟨values, hcore, rfl⟩ := Option.map_eq_some_iff.mp h
    obtain ⟨build, rfl, hbuild⟩ := (parseBuild_eq_some _).mp hbuildText
    obtain ⟨rfl, hprerelease⟩ := (parsePrerelease_eq_some _ _).mp hsuffixText
    obtain ⟨a, b, c, rfl, hnumbers, rfl⟩ := (parseCore_eq_some _ _).mp hcore
    obtain ⟨-, rfl⟩ := cutAt_eq_joined.mp h43
    obtain ⟨-, rfl⟩ := cutAt_eq_joined.mp h45
    let v : Version :=
      { major := a, minor := b, patch := c, prerelease, build, major_numeral := (hnumbers a (by simp)).1,
        minor_numeral := (hnumbers b (by simp)).1, patch_numeral := (hnumbers c (by simp)).1,
        prerelease_identifier := hprerelease, build_identifier := hbuild }
    exact ⟨v, ⟨not_lt.mp (not_or.mp hbound).2, fun n hn => (hnumbers n hn).2⟩, rfl, rfl⟩

/-- **The parser accepts the versions within the device's bounds**, and nothing else. -/
theorem validSemver_iff (s : Bytes) : validSemver s = true ↔ ∃ v : Version, v.Fits ∧ v.text = s := by
  unfold validSemver
  rw [Option.isSome_iff_exists]
  constructor
  · rintro ⟨semver, h⟩
    obtain ⟨v, hfits, htext, -⟩ := exists_version h
    exact ⟨v, hfits, htext⟩
  · rintro ⟨v, hfits, rfl⟩
    exact ⟨_, parseSemver_text v hfits⟩

end PowerMonitor.Ota.Semver
