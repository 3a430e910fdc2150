import Mathlib.Data.Prod.Lex
import Mathlib.Data.Sum.Order
import Mathlib.Order.WithBot
import PowerMonitor.Ota.Semver

/-! # The precedence of versions

The precedence of Semantic Versioning 2.0 as a linear order: the three numbers, then the identifiers of the
pre-release, which are numbers or texts above all numbers; a release is above its pre-releases. `compareSemver` is the
order of the precedences (`compareSemver_compares`), although it compares numeric identifiers by their lengths and
digits, so that it is a linear order on versions up to their builds. -/

namespace PowerMonitor.Ota.Precedence

open PowerMonitor.Lib.Binary PowerMonitor.Lib.Scan PowerMonitor.Lib.Decimal PowerMonitor.Security.Crypto
open PowerMonitor.Ota.ManifestV2 PowerMonitor.Ota.Semver

/-- The rank of an identifier of a pre-release: digits rank as their number, below every other text. -/
def identifierRank (s : Bytes) : ℕ ⊕ₗ List ℕ :=
  if s.all isDigit then toLex (Sum.inl (decimalValue s)) else toLex (Sum.inr (numbers s))

/-- The rank of a pre-release: no identifiers are a release, which ranks above. -/
def prereleaseRank (identifiers : List Bytes) : WithTop (List (ℕ ⊕ₗ List ℕ)) :=
  if identifiers = [] then ⊤ else ↑(identifiers.map identifierRank)

/-- **The precedence of a version.** The build has no part in it. -/
def precedence (v : Version) : ℕ ×ₗ ℕ ×ₗ ℕ ×ₗ WithTop (List (ℕ ⊕ₗ List ℕ)) :=
  toLex (decimalValue v.major, toLex (decimalValue v.minor, toLex (decimalValue v.patch, prereleaseRank v.prerelease)))

/-! ### Identifiers -/

theorem compareBytes_compares (l r : Bytes) : (compareBytes l r).Compares (numbers l) (numbers r) := by
  unfold compareBytes
  split
  · next h => exact congrArg numbers h
  · next hne =>
    have hne : numbers l ≠ numbers r := fun h => hne (numbers_injective h)
    split
    · next h => exact lt_of_le_of_ne ((bytesLe_iff l r).mp h) hne
    · next h => exact lt_of_not_ge fun hle => h ((bytesLe_iff l r).mpr hle)

/-- **Numeric identifiers of any length** are compared as numbers. -/
theorem compareNumericIdentifier_compares {l r : Bytes} (hl : Numeral l) (hr : Numeral r) :
    (compareNumericIdentifier l r).Compares (decimalValue l) (decimalValue r) := by
  unfold compareNumericIdentifier
  split
  · split
    · next h => exact decimalValue_lt_of_length hl.digits hr h hl.ne_nil
    · next hne h => exact decimalValue_lt_of_length hr.digits hl (by omega) hr.ne_nil
  · next hlength =>
    have hlength : l.length = r.length := not_not.mp hlength
    have hlt : decimalValue l < decimalValue r ↔ numbers l < numbers r := decimalValue_lt_iff hl.digits hr.digits hlength
    have hgt : decimalValue r < decimalValue l ↔ numbers r < numbers l :=
      decimalValue_lt_iff hr.digits hl.digits hlength.symm
    have hbytes := compareBytes_compares l r
    cases horder : compareBytes l r with
    | lt =>
      rw [horder] at hbytes
      exact hlt.mpr hbytes
    | eq =>
      rw [horder] at hbytes
      exact congrArg decimalValue (numbers_injective hbytes)
    | gt =>
      rw [horder] at hbytes
      exact hgt.mpr hbytes

theorem numeral_of_digits {s : Bytes} (h : PrereleaseIdentifier s) (hdigits : s.all isDigit = true) : Numeral s :=
  h.resolve_left fun halpha => not_all_isDigit.mpr halpha.2 hdigits

theorem compareIdentifier_compares {l r : Bytes} (hl : PrereleaseIdentifier l) (hr : PrereleaseIdentifier r) :
    (compareIdentifier l r).Compares (identifierRank l) (identifierRank r) := by
  unfold compareIdentifier identifierRank numericIdentifier
  by_cases hdl : l.all isDigit = true <;> by_cases hdr : r.all isDigit = true
  · rw [if_neg (by simp [hdl, hdr]), if_pos hdl, if_pos hdl, if_pos hdr]
    have h := compareNumericIdentifier_compares (numeral_of_digits hl hdl) (numeral_of_digits hr hdr)
    revert h
    cases compareNumericIdentifier l r <;> simp [Ordering.Compares]
  · rw [if_pos (by simp [hdl, hdr]), if_pos hdl, if_pos hdl, if_neg hdr]
    exact Sum.Lex.inl_lt_inr _ _
  · rw [if_pos (by simp [hdl, hdr]), if_neg hdl, if_neg hdl, if_pos hdr]
    exact Sum.Lex.inl_lt_inr _ _
  · rw [if_neg (by simp [hdl, hdr]), if_neg hdl, if_neg hdl, if_neg hdr]
    have h := compareBytes_compares l r
    revert h
    cases compareBytes l r <;> simp [Ordering.Compares]

/-- Different identifiers have different ranks. -/
theorem compareIdentifier_ne_eq {l r : Bytes} (hne : l ≠ r) : compareIdentifier l r ≠ .eq := by
  unfold compareIdentifier compareNumericIdentifier compareBytes
  split_ifs <;> simp_all

/-! ### Lists and pairs -/

section Lex
variable {α β : Type} [LinearOrder α] [LinearOrder β] {a a' : α} {b b' : β} {o o' : Ordering}

/-- The first difference decides. -/
theorem then_compares (h : o.Compares a a') (h' : o'.Compares b b') :
    (o.then o').Compares (toLex (a, b)) (toLex (a', b')) := by
  cases o with
  | lt => exact Prod.Lex.toLex_lt_toLex.mpr (Or.inl h)
  | gt => exact Prod.Lex.toLex_lt_toLex.mpr (Or.inl h)
  | eq =>
    obtain rfl : a = a' := h
    cases o' with
    | lt => exact Prod.Lex.toLex_lt_toLex.mpr (Or.inr ⟨rfl, h'⟩)
    | gt => exact Prod.Lex.toLex_lt_toLex.mpr (Or.inr ⟨rfl, h'⟩)
    | eq =>
      obtain rfl : b = b' := h'
      exact rfl

theorem cons_compares {l l' : List α} (h : o.Compares a a') (hne : o ≠ .eq) : o.Compares (a :: l) (a' :: l') := by
  cases o with
  | lt => exact List.cons_lt_cons_iff.mpr (Or.inl h)
  | eq => exact absurd rfl hne
  | gt => exact List.cons_lt_cons_iff.mpr (Or.inl h)

theorem cons_compares_cons {l l' : List α} (h : o.Compares l l') : o.Compares (a :: l) (a :: l') := by
  cases o with
  | lt => exact List.cons_lt_cons_iff.mpr (Or.inr ⟨rfl, h⟩)
  | eq => exact congrArg (a :: ·) h
  | gt => exact List.cons_lt_cons_iff.mpr (Or.inr ⟨rfl, h⟩)

/-- A common start does not matter. -/
theorem append_lt_append {l l' : List α} (s : List α) (h : l < l') : s ++ l < s ++ l' := by
  induction s with
  | nil => exact h
  | cons c s ih => exact List.cons_lt_cons_iff.mpr (Or.inr ⟨rfl, ih⟩)

end Lex

/-! ### Versions -/

theorem comparePrerelease_compares {l r : List Bytes} (hl : ∀ i ∈ l, PrereleaseIdentifier i)
    (hr : ∀ i ∈ r, PrereleaseIdentifier i) :
    (comparePrerelease l r).Compares (l.map identifierRank) (r.map identifierRank) := by
  induction l generalizing r with
  | nil =>
    cases r with
    | nil => exact rfl
    | cons j r => exact List.nil_lt_cons _ _
  | cons i l ih =>
    cases r with
    | nil => exact List.nil_lt_cons _ _
    | cons j r =>
      unfold comparePrerelease
      split
      · next hij =>
        rw [hij]
        exact cons_compares_cons (ih (fun k hk => hl k (by simp [hk])) fun k hk => hr k (by simp [hk]))
      · next hij =>
        exact cons_compares (compareIdentifier_compares (hl i (by simp)) (hr j (by simp))) (compareIdentifier_ne_eq hij)

/-- The order of two pre-releases, as `compareSemver` finds it. -/
def compareRelease (l r : List Bytes) : Ordering :=
  if l = [] ∨ r = [] then (if l = [] ∧ r = [] then .eq else if l = [] then .gt else .lt) else comparePrerelease l r

theorem compareRelease_compares {l r : List Bytes} (hl : ∀ i ∈ l, PrereleaseIdentifier i)
    (hr : ∀ i ∈ r, PrereleaseIdentifier i) : (compareRelease l r).Compares (prereleaseRank l) (prereleaseRank r) := by
  unfold compareRelease prereleaseRank
  by_cases hlnil : l = [] <;> by_cases hrnil : r = []
  · simp [hlnil, hrnil, Ordering.Compares]
  · simp [hlnil, hrnil, Ordering.Compares]
  · simp [hlnil, hrnil, Ordering.Compares]
  · rw [if_neg (by simp [hlnil, hrnil]), if_neg hlnil, if_neg hrnil]
    have h := comparePrerelease_compares hl hr
    revert h
    cases comparePrerelease l r <;> simp [Ordering.Compares]

theorem compareCore_cons (a b : ℕ) (l r : List ℕ) : compareCore (a :: l) (b :: r) = (cmp a b).then (compareCore l r) := by
  rw [compareCore]
  unfold cmp cmpUsing
  split_ifs <;> rfl

theorem compareSemver_eq {v w : Version} (hv : v.Fits) (hw : w.Fits) :
    compareSemver v.text w.text = (cmp (decimalValue v.major) (decimalValue w.major)).then
      ((cmp (decimalValue v.minor) (decimalValue w.minor)).then
        ((cmp (decimalValue v.patch) (decimalValue w.patch)).then (compareRelease v.prerelease w.prerelease))) := by
  unfold compareSemver
  rw [parseSemver_text v hv, parseSemver_text w hw]
  have hcore : compareCore v.parsed.core w.parsed.core = (cmp (decimalValue v.major) (decimalValue w.major)).then
      ((cmp (decimalValue v.minor) (decimalValue w.minor)).then
        ((cmp (decimalValue v.patch) (decimalValue w.patch)).then .eq)) := by
    unfold Version.parsed Version.core
    rw [List.map_cons, List.map_cons, List.map_cons, List.map_cons, List.map_cons, List.map_cons, compareCore_cons,
      compareCore_cons, compareCore_cons]
    rfl
  dsimp only
  rw [hcore]
  cases cmp (decimalValue v.major) (decimalValue w.major) with
  | lt => rfl
  | gt => rfl
  | eq =>
    cases cmp (decimalValue v.minor) (decimalValue w.minor) with
    | lt => rfl
    | gt => rfl
    | eq => cases cmp (decimalValue v.patch) (decimalValue w.patch) <;> rfl

/-- **`compareSemver` is the order of the precedences.** -/
theorem compareSemver_compares {v w : Version} (hv : v.Fits) (hw : w.Fits) :
    (compareSemver v.text w.text).Compares (precedence v) (precedence w) := by
  rw [compareSemver_eq hv hw]
  exact then_compares (cmp_compares _ _) (then_compares (cmp_compares _ _) (then_compares (cmp_compares _ _)
    (compareRelease_compares v.prerelease_identifier w.prerelease_identifier)))

/-! ### The policy -/

/-- Without a leave to go back, the policy accepts a newer version only. -/
theorem compareSemver_of_validatePolicy {m : Manifest} {context : PolicyContext} (h : validatePolicy m context = .ok ())
    (hdowngrade : m.allowDowngrade = false) : compareSemver m.version context.currentVersion = .gt := by
  by_contra hne
  cases horder : compareSemver m.version context.currentVersion with
  | gt => exact hne horder
  | _ =>
    simp only [validatePolicy, horder, hdowngrade, Bool.false_eq_true, not_false_eq_true, if_true, bind, Except.bind, throw,
      throwThe, MonadExceptOf.throw] at h
    -- the device, then the window; whatever is checked before the version, nothing accepts
    split at h
    · cases h
    split at h
    · split_ifs at h
    · cases h

/-- **The rules of precedence** for an order on the texts of versions. -/
structure Rules (order : Bytes → Bytes → Ordering) : Prop where
  /-- It is the order of the precedences, -/
  precedence : ∀ v w : Version, v.Fits → w.Fits → (order v.text w.text).Compares (precedence v) (precedence w)
  /-- reflexive, -/
  refl : ∀ v : Version, v.Fits → order v.text v.text = .eq
  /-- antisymmetric in sign, -/
  swap : ∀ v w : Version, v.Fits → w.Fits → order w.text v.text = (order v.text w.text).swap
  /-- and transitive. -/
  trans : ∀ u v w : Version, u.Fits → v.Fits → w.Fits → order u.text v.text ≠ .gt → order v.text w.text ≠ .gt →
    order u.text w.text ≠ .gt
  /-- The build is ignored. -/
  build : ∀ v w : Version, v.Fits → w.Fits → v.core = w.core → v.prerelease = w.prerelease →
    order v.text w.text = .eq
  /-- A pre-release is below its release. -/
  release : ∀ v w : Version, v.Fits → w.Fits → v.core = w.core → v.prerelease ≠ [] → w.prerelease = [] →
    order v.text w.text = .lt
  /-- The first identifiers that differ decide: numeric ones by their numbers, -/
  numeric : ∀ (v w : Version) (s l r : List Bytes) (i j : Bytes), v.Fits → w.Fits → v.core = w.core →
    v.prerelease = s ++ i :: l → w.prerelease = s ++ j :: r → Digits i → Digits j → decimalValue i < decimalValue j →
    order v.text w.text = .lt
  /-- a numeric one below another, -/
  alphanumeric : ∀ (v w : Version) (s l r : List Bytes) (i j : Bytes), v.Fits → w.Fits → v.core = w.core →
    v.prerelease = s ++ i :: l → w.prerelease = s ++ j :: r → Digits i → ¬ Digits j → order v.text w.text = .lt
  /-- and the others by their characters. -/
  characters : ∀ (v w : Version) (s l r : List Bytes) (i j : Bytes), v.Fits → w.Fits → v.core = w.core →
    v.prerelease = s ++ i :: l → w.prerelease = s ++ j :: r → ¬ Digits i → ¬ Digits j → numbers i < numbers j →
    order v.text w.text = .lt
  /-- With an equal start the shorter list is below. -/
  longer : ∀ (v w : Version) (j : Bytes) (r : List Bytes), v.Fits → w.Fits → v.core = w.core → v.prerelease ≠ [] →
    w.prerelease = v.prerelease ++ j :: r → order v.text w.text = .lt

theorem precedence_lt {v w : Version} (hcore : v.core = w.core)
    (h : prereleaseRank v.prerelease < prereleaseRank w.prerelease) : precedence v < precedence w := by
  unfold precedence
  obtain ⟨hmajor, hminor, hpatch, -⟩ : v.major = w.major ∧ v.minor = w.minor ∧ v.patch = w.patch ∧ True := by
    simpa [Version.core] using hcore
  simp only [Prod.Lex.toLex_lt_toLex, hmajor, hminor, hpatch, lt_irrefl, false_or, true_and]
  exact h

theorem identifierRank_lt {v w : Version} {s l r : List Bytes} {i j : Bytes} (hcore : v.core = w.core)
    (hv : v.prerelease = s ++ i :: l) (hw : w.prerelease = s ++ j :: r) (h : identifierRank i < identifierRank j) :
    precedence v < precedence w := by
  refine precedence_lt hcore ?_
  unfold prereleaseRank
  rw [hv, hw, if_neg (by simp), if_neg (by simp), WithTop.coe_lt_coe, List.map_append, List.map_append]
  exact append_lt_append _ (List.cons_lt_cons_iff.mpr (Or.inl h))

theorem rules_compareSemver : Rules compareSemver where
  precedence _ _ := compareSemver_compares
  refl v hv := (compareSemver_compares hv hv).eq_eq.mpr rfl
  swap v w hv hw := (compareSemver_compares hw hv).inj (Ordering.compares_swap.mpr (compareSemver_compares hv hw))
  trans u v w hu hv hw huv hvw h := by
    have hle {v w : Version} (hv : v.Fits) (hw : w.Fits) (h : compareSemver v.text w.text ≠ .gt) :
        precedence v ≤ precedence w := not_lt.mp fun hlt => h ((compareSemver_compares hv hw).eq_gt.mpr hlt)
    exact absurd ((compareSemver_compares hu hw).eq_gt.mp h) (not_lt.mpr ((hle hu hv huv).trans (hle hv hw hvw)))
  build v w hv hw hcore hprerelease := by
    refine (compareSemver_compares hv hw).eq_eq.mpr ?_
    obtain ⟨hmajor, hminor, hpatch, -⟩ : v.major = w.major ∧ v.minor = w.minor ∧ v.patch = w.patch ∧ True := by
      simpa [Version.core] using hcore
    unfold Precedence.precedence
    rw [hmajor, hminor, hpatch, hprerelease]
  release v w hv hw hcore hpre hrelease := by
    refine (compareSemver_compares hv hw).eq_lt.mpr (precedence_lt hcore ?_)
    unfold prereleaseRank
    rw [if_neg hpre, if_pos hrelease]
    exact WithTop.coe_lt_top _
  numeric v w s l r i j hv hw hcore hl hr hi hj hlt := by
    refine (compareSemver_compares hv hw).eq_lt.mpr (identifierRank_lt hcore hl hr ?_)
    unfold identifierRank
    rw [if_pos (List.all_eq_true.mpr hi), if_pos (List.all_eq_true.mpr hj)]
    exact Sum.Lex.inl_lt_inl_iff.mpr hlt
  alphanumeric v w s l r i j hv hw hcore hl hr hi hj := by
    refine (compareSemver_compares hv hw).eq_lt.mpr (identifierRank_lt hcore hl hr ?_)
    unfold identifierRank
    rw [if_pos (List.all_eq_true.mpr hi), if_neg fun h => hj (List.all_eq_true.mp h)]
    exact Sum.Lex.inl_lt_inr _ _
  characters v w s l r i j hv hw hcore hl hr hi hj hlt := by
    refine (compareSemver_compares hv hw).eq_lt.mpr (identifierRank_lt hcore hl hr ?_)
    unfold identifierRank
    rw [if_neg fun h => hi (List.all_eq_true.mp h), if_neg fun h => hj (List.all_eq_true.mp h)]
    exact Sum.Lex.inr_lt_inr_iff.mpr hlt
  longer v w j r hv hw hcore hne hr := by
    refine (compareSemver_compares hv hw).eq_lt.mpr (precedence_lt hcore ?_)
    unfold prereleaseRank
    rw [hr, if_neg hne, if_neg (by simp), WithTop.coe_lt_coe, List.map_append]
    have hlt := append_lt_append (v.prerelease.map identifierRank) (List.nil_lt_cons (identifierRank j) (r.map identifierRank))
    rwa [List.append_nil] at hlt

/-- **Versions are ordered by the rules of precedence.** The device takes the versions within its bounds, compares them
by the rules, and without a leave to go back accepts no version whose precedence is lower or equal. -/
theorem semver_precedence :
    (∀ s, validSemver s = true ↔ ∃ v : Version, v.Fits ∧ v.text = s) ∧ Rules compareSemver ∧
      ∀ (m : Manifest) (context : PolicyContext) (v w : Version), v.Fits → w.Fits → m.version = v.text →
        context.currentVersion = w.text → m.allowDowngrade = false → precedence v ≤ precedence w →
        validatePolicy m context ≠ .ok () := by
  refine ⟨validSemver_iff, rules_compareSemver, fun m context v w hv hw hversion hcurrent hdowngrade hle h => ?_⟩
  have horder := compareSemver_of_validatePolicy h hdowngrade
  rw [hversion, hcurrent] at horder
  exact absurd ((compareSemver_compares hv hw).eq_gt.mp horder) (not_lt.mpr hle)

/-- Nine before ten, with a build that does not count. -/
theorem semver_precedence_nine :
    validSemver (ascii "1.0.0-rc.9+x.01") = true ∧
      compareSemver (ascii "1.0.0-rc.9+x.01") (ascii "1.0.0-rc.10") = .lt ∧
      compareSemver (ascii "1.0.0-rc.10") (ascii "1.0.0-rc.9+x.01") = .gt := by
  have hfirst : validSemver (ascii "1.0.0-rc.9+x.01") = true := by decide +kernel
  have hsecond : validSemver (ascii "1.0.0-rc.10") = true := by decide +kernel
  obtain ⟨v, hv, hfirstText⟩ := (semver_precedence.1 _).mp hfirst
  obtain ⟨w, hw, hsecondText⟩ := (semver_precedence.1 _).mp hsecond
  have hlt : compareSemver (ascii "1.0.0-rc.9+x.01") (ascii "1.0.0-rc.10") = .lt := by decide +kernel
  have hswap := semver_precedence.2.1.swap v w hv hw
  rw [hfirstText, hsecondText, hlt] at hswap
  exact ⟨hfirst, hlt, hswap⟩

end PowerMonitor.Ota.Precedence
