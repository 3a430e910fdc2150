import Mathlib.Algebra.GroupWithZero.Nat
import Mathlib.Algebra.Order.BigOperators.Group.List
import Mathlib.Algebra.Order.Group.Nat
import Mathlib.Data.List.Induction
import Mathlib.Data.List.Sort

/-! # A shortlist with two limits

Items come in any order. The shortlist is kept in the order of their keys; it is cut at the end until no more than
`limit` items are on it and their sizes do not exceed `room`. What is cut does not come back, but an item that comes
later may fit where it did not.

* `leading_initial_shortlist`: the first items of all that fit are on the shortlist, whatever the order they came in.
* `shortlist_eq`: what else is on it begins with the item that `overhang` follows through the walk.
* `complete_iff`: so the shortlist has no gap if and only if nothing is overhanging at the end. -/

namespace PowerMonitor.Lib.Shortlist

variable {α β : Type} [LinearOrder β] (key : α → β) (size : α → ℕ) (limit room : ℕ)

/-- They fit. -/
def Fits (cs : List α) : Prop := cs.length ≤ limit ∧ (cs.map size).sum ≤ room

instance (cs : List α) : Decidable (Fits size limit room cs) := inferInstanceAs (Decidable (_ ∧ _))

/-- The longest initial part that fits. -/
def leading (size : α → ℕ) : ℕ → ℕ → List α → List α
  | limit + 1, room, c :: cs => if size c ≤ room then c :: leading size limit (room - size c) cs else []
  | _, _, _ => []

/-- Before the items of its key. -/
abbrev place (e : α) (cs : List α) : List α := cs.orderedInsert (fun a b => key a ≤ key b) e

/-- All items in order; of two with the same key, the later one first. -/
def inOrder (es : List α) : List α := es.foldl (fun cs e => place key e cs) []

/-- The shortlist after all items. -/
def shortlist (es : List α) : List α := es.foldl (fun cs e => leading size limit room (place key e cs)) []

/-- The items of a page that have come, and the first item beyond the page that is on the shortlist. -/
structure Beside (α : Type) where
  read : List α := []
  kept : Option α := none

/-- It does not come after all items of the page. -/
def within (page : List α) (e : α) : Bool := page.any fun p => key e ≤ key p

/-- An item of the page may push out what is kept. Another one is kept instead if it comes first and fits beside the
items of the page that have come; if it does not fit, it pushes out all that comes after it. -/
def beside (page : List α) (b : Beside α) (e : α) : Beside α :=
  if within key page e then
    { read := e :: b.read, kept := b.kept.filter fun y => Fits size limit room (y :: e :: b.read) }
  else if b.kept.any fun y => key y < key e then b
  else { b with kept := if Fits size limit room (e :: b.read) then some e else none }

/-- What is kept beyond the page after all items. -/
def overhang (page es : List α) : Option α := (es.foldl (beside key size limit room page) {}).kept

/-- The first items of all that fit. -/
def firstPage (es : List α) : List α := leading size limit room (inOrder key es)

/-- **No gap:** each key once and in order, and all the items up to the last one. -/
structure Complete (cs es : List α) : Prop where
  increasing : cs.Pairwise fun a b => key a < key b
  all : cs.Perm (es.filter (within key cs))

/-- **Nothing is left over:** the items of the first page and the one after it have different keys, and no item beyond
the page is kept beside it. -/
structure Closed (es : List α) : Prop where
  distinct : ((inOrder key es).take ((firstPage key size limit room es).length + 1)).Pairwise fun a b => key a < key b
  level : overhang key size limit room (firstPage key size limit room es) es = none

section

variable {key size limit room}

/-! ### What fits -/

theorem Fits.of_perm {cs ds : List α} (h : Fits size limit room ds) (hperm : cs.Perm ds) : Fits size limit room cs :=
  ⟨hperm.length_eq ▸ h.1, (hperm.map size).sum_nat ▸ h.2⟩

theorem Fits.of_sublist {cs ds : List α} (h : Fits size limit room ds) (hsub : cs.Sublist ds) :
    Fits size limit room cs :=
  ⟨hsub.length_le.trans h.1, ((hsub.map size).sum_le_sum fun _ _ => Nat.zero_le _).trans h.2⟩

theorem fits_perm {cs ds : List α} (h : cs.Perm ds) : Fits size limit room cs ↔ Fits size limit room ds :=
  ⟨fun hcs => hcs.of_perm h.symm, fun hds => hds.of_perm h⟩

theorem fits_nil : Fits size limit room ([] : List α) := ⟨Nat.zero_le _, Nat.zero_le _⟩

theorem leading_initial (size : α → ℕ) (limit room : ℕ) (cs : List α) : leading size limit room cs <+: cs := by
  induction cs generalizing limit room with
  | nil => cases limit <;> exact List.prefix_rfl
  | cons c cs ih =>
    cases limit with
    | zero => exact List.nil_prefix
    | succ limit =>
      unfold leading
      split
      · exact (List.prefix_cons_inj c).mpr (ih _ _)
      · exact List.nil_prefix

theorem fits_leading (size : α → ℕ) (limit room : ℕ) (cs : List α) : Fits size limit room (leading size limit room cs) := by
  induction cs generalizing limit room with
  | nil => cases limit <;> exact fits_nil
  | cons c cs ih =>
    cases limit with
    | zero => exact fits_nil
    | succ limit =>
      unfold leading
      split
      · next hsize =>
        obtain ⟨hlength, hsum⟩ := ih limit (room - size c)
        refine ⟨Nat.succ_le_succ hlength, ?_⟩
        rw [List.map_cons, List.sum_cons]
        omega
      · exact fits_nil

/-- **It is the longest one.** -/
theorem initial_leading {cs ps : List α} (hinitial : ps <+: cs) (h : Fits size limit room ps) :
    ps <+: leading size limit room cs := by
  induction ps generalizing limit room cs with
  | nil => exact List.nil_prefix
  | cons p ps ih =>
    obtain ⟨rest, rfl⟩ := hinitial
    obtain ⟨hlength, hsum⟩ := h
    rw [List.map_cons, List.sum_cons] at hsum
    cases limit with
    | zero => cases hlength
    | succ limit =>
      rw [List.cons_append, leading, if_pos (by omega), List.prefix_cons_inj]
      exact ih (List.prefix_append ps rest) ⟨Nat.le_of_succ_le_succ hlength, by omega⟩

theorem leading_of_fits {cs : List α} (h : Fits size limit room cs) : leading size limit room cs = cs :=
  (leading_initial size limit room cs).eq_of_length_le (initial_leading List.prefix_rfl h).length_le

theorem initial_concat (as bs : List α) (b : α) : as ++ [b] <+: as ++ b :: bs :=
  (List.prefix_append_right_inj as).mpr ⟨bs, rfl⟩

/-- A part that fits ends before an item that does not fit. -/
theorem initial_of_not_fits {fs as bs : List α} {b : α} (hinitial : fs <+: as ++ b :: bs)
    (h : Fits size limit room fs) (hfull : ¬ Fits size limit room (as ++ [b])) : fs <+: as := by
  obtain hle | hge := Nat.le_total fs.length as.length
  · exact List.prefix_of_prefix_length_le hinitial (List.prefix_append _ _) hle
  · obtain heq | hlt := hge.eq_or_lt
    · exact List.prefix_of_prefix_length_le hinitial (List.prefix_append _ _) heq.ge
    · have hlonger : as ++ [b] <+: fs :=
        List.prefix_of_prefix_length_le (initial_concat as bs b) hinitial (by rw [List.length_append]; exact hlt)
      exact absurd (h.of_sublist hlonger.sublist) hfull

/-- The item after the leading ones does not fit. -/
theorem not_fits_next (cs rest : List α) (c : α) (h : leading size limit room cs ++ c :: rest = cs) :
    ¬ Fits size limit room (leading size limit room cs ++ [c]) := by
  intro hfits
  have hinitial : leading size limit room cs ++ [c] <+: cs := by
    conv_rhs => rw [← h]
    exact initial_concat _ _ _
  have hle := (initial_leading hinitial hfits).length_le
  rw [List.length_append, List.length_singleton] at hle
  omega

/-- What is kept after items that fit. -/
theorem leading_append {as : List α} (has : Fits size limit room as) (ys : List α) :
    ∃ zs, leading size limit room (as ++ ys) = as ++ zs ∧ zs <+: ys ∧
      zs.head? = ys.head?.filter fun y => Fits size limit room (as ++ [y]) := by
  obtain ⟨zs, hzs⟩ := initial_leading (List.prefix_append as ys) has
  have hinitial : zs <+: ys := by
    rw [← List.prefix_append_right_inj as, hzs]
    exact leading_initial ..
  refine ⟨zs, hzs.symm, hinitial, ?_⟩
  cases ys with
  | nil =>
    rw [List.prefix_nil.mp hinitial]
    rfl
  | cons y ys =>
    rw [List.head?_cons, Option.filter_some]
    split
    · next hfits =>
      have hlonger : as ++ [y] <+: as ++ zs := by
        rw [hzs]
        exact initial_leading (initial_concat as ys y) (of_decide_eq_true hfits)
      obtain ⟨rest, hrest⟩ := (List.prefix_append_right_inj as).mp hlonger
      rw [← hrest]
      rfl
    · next hfull =>
      cases zs with
      | nil => rfl
      | cons z zs =>
        obtain ⟨rfl, -⟩ := List.cons_prefix_cons.mp hinitial
        refine absurd (decide_eq_true ((fits_leading size limit room (as ++ z :: ys)).of_sublist ?_)) hfull
        rw [← hzs]
        exact (List.append_sublist_append_left _).mpr (List.singleton_sublist.mpr List.mem_cons_self)

/-! ### In order -/

instance instTotalKey : Std.Total (fun a b : α => key a ≤ key b) := ⟨fun _ _ => le_total _ _⟩

instance instTransKey : IsTrans α (fun a b : α => key a ≤ key b) := ⟨fun _ _ _ => le_trans⟩

theorem inOrder_append (es : List α) (e : α) : inOrder key (es ++ [e]) = place key e (inOrder key es) := by
  unfold inOrder
  rw [List.foldl_append]
  rfl

theorem shortlist_append (key : α → β) (size : α → ℕ) (limit room : ℕ) (es : List α) (e : α) : shortlist key size limit room (es ++ [e]) =
    leading size limit room (place key e (shortlist key size limit room es)) := by
  unfold shortlist
  rw [List.foldl_append]
  rfl

theorem inOrder_perm (key : α → β) (es : List α) : (inOrder key es).Perm es := by
  induction es using List.reverseRecOn with
  | nil => exact .refl _
  | append_singleton es e ih =>
    rw [inOrder_append]
    exact (List.perm_orderedInsert _ e _).trans ((ih.cons e).trans (List.perm_append_singleton e es).symm)

theorem inOrder_pairwise (key : α → β) (es : List α) : (inOrder key es).Pairwise fun a b => key a ≤ key b := by
  induction es using List.reverseRecOn with
  | nil => exact .nil
  | append_singleton es e ih =>
    rw [inOrder_append]
    exact ih.orderedInsert e _

theorem shortlist_sublist (key : α → β) (size : α → ℕ) (limit room : ℕ) (es : List α) : (shortlist key size limit room es).Sublist (inOrder key es) := by
  induction es using List.reverseRecOn with
  | nil => exact .refl _
  | append_singleton es e ih =>
    rw [inOrder_append, shortlist_append]
    exact (leading_initial ..).sublist.trans (ih.orderedInsert_sublist e (inOrder_pairwise key es))

theorem fits_shortlist (key : α → β) (size : α → ℕ) (limit room : ℕ) (es : List α) : Fits size limit room (shortlist key size limit room es) := by
  induction es using List.reverseRecOn with
  | nil => exact fits_nil
  | append_singleton es e _ =>
    rw [shortlist_append]
    exact fits_leading ..

/-- Before what it does not come after. -/
theorem place_append (as : List α) {xs : List α} {e : α} (h : ∀ x ∈ xs, key e ≤ key x) :
    place key e (as ++ xs) = place key e as ++ xs := by
  induction as with
  | nil =>
    cases xs with
    | nil => rfl
    | cons x xs => exact List.orderedInsert_cons_of_le _ _ (h x List.mem_cons_self)
  | cons a as ih =>
    simp only [place, List.cons_append, List.orderedInsert_cons] at ih ⊢
    split
    · rfl
    · rw [ih, List.cons_append]

/-- After what it comes after. -/
theorem place_append_of_lt {as : List α} {e : α} (xs : List α) (h : ∀ a ∈ as, key a < key e) :
    place key e (as ++ xs) = as ++ place key e xs := by
  induction as with
  | nil => rfl
  | cons a as ih =>
    rw [List.forall_mem_cons] at h
    rw [List.cons_append, place, List.orderedInsert_cons, if_neg (not_le.mpr h.1), List.cons_append]
    exact congrArg _ (ih h.2)

/-- Within the first part, if not all of it comes before. -/
theorem place_append_of_not_lt {as : List α} {e : α} (xs : List α) (h : ¬ ∀ a ∈ as, key a < key e) :
    place key e (as ++ xs) = place key e as ++ xs := by
  induction as with
  | nil => exact absurd (fun _ ha => nomatch ha) h
  | cons a as ih =>
    simp only [place, List.cons_append, List.orderedInsert_cons] at ih ⊢
    split
    · rfl
    · next hlt =>
      rw [ih, List.cons_append]
      intro hall
      exact h (List.forall_mem_cons.mpr ⟨not_le.mp hlt, hall⟩)

/-- Items that are in order stay as they are. -/
theorem inOrder_of_increasing {es : List α} (h : es.Pairwise fun a b => key a < key b) : inOrder key es = es := by
  induction es using List.reverseRecOn with
  | nil => rfl
  | append_singleton es e ih =>
    obtain ⟨hes, -, hlast⟩ := List.pairwise_append.mp h
    rw [inOrder_append, ih hes]
    have hplace := place_append_of_lt [] fun c hc => hlast c hc e (List.mem_singleton_self e)
    rwa [List.append_nil] at hplace

/-! ### What the shortlist starts with -/

theorem le_of_sublist {r : α} {rs xs : List α} (hrs : (r :: rs).Pairwise fun a b => key a ≤ key b)
    (hsub : xs.Sublist (r :: rs)) : ∀ x ∈ xs, key r ≤ key x := by
  intro x hx
  obtain rfl | hx := List.mem_cons.mp (hsub.subset hx)
  · exact le_rfl
  · exact (List.pairwise_cons.mp hrs).1 x hx

/-- What comes after the leading items of a list in order, and after those of a part of it that has them. -/
theorem leading_place {ps rs xs : List α} (e : α) (hordered : rs.Pairwise fun a b => key a ≤ key b)
    (hsub : xs.Sublist rs) (hps : leading size limit room (ps ++ rs) = ps) :
    leading size limit room (place key e (ps ++ rs)) <+: place key e (ps ++ xs) := by
  have hfits := fits_leading size limit room (place key e (ps ++ rs))
  have hinitial := leading_initial size limit room (place key e (ps ++ rs))
  cases rs with
  | nil =>
    rw [List.sublist_nil.mp hsub]
    exact hinitial
  | cons r rs =>
    have hfull : ¬ Fits size limit room (ps ++ [r]) := by
      have hnext := not_fits_next (ps ++ r :: rs) rs r (by rw [hps])
      rwa [hps] at hnext
    by_cases hlast : ∀ p ∈ ps, key p < key e
    · rw [place_append_of_lt _ hlast] at hfits hinitial ⊢
      rw [place_append_of_lt _ hlast]
      by_cases hr : key e ≤ key r
      · -- it comes next, and then only what did not fit before
        have hxs : place key e xs = e :: xs :=
          place_append [] fun x hx => hr.trans (le_of_sublist hordered hsub x hx)
        have hrs : place key e (r :: rs) = e :: r :: rs := List.orderedInsert_cons_of_le _ _ hr
        rw [hrs] at hfits hinitial ⊢
        rw [hxs]
        have hsplit : ps ++ e :: r :: rs = (ps ++ [e]) ++ r :: rs := by rw [List.append_assoc]; rfl
        rw [hsplit] at hfits hinitial ⊢
        refine (initial_of_not_fits hinitial hfits fun hmore => hfull (hmore.of_sublist ?_)).trans (initial_concat _ _ _)
        exact (List.sublist_append_left ps [e]).append (.refl _)
      · have hrs : place key e (r :: rs) = r :: place key e rs := by rw [place, List.orderedInsert_cons, if_neg hr]
        rw [hrs] at hfits hinitial ⊢
        exact (initial_of_not_fits hinitial hfits hfull).trans (List.prefix_append _ _)
    · rw [place_append_of_not_lt _ hlast] at hfits hinitial ⊢
      rw [place_append_of_not_lt _ hlast]
      refine (initial_of_not_fits hinitial hfits fun hmore => hfull ?_).trans (List.prefix_append _ _)
      refine hmore.of_sublist (List.Sublist.append ?_ (.refl _))
      exact List.sublist_orderedInsert _ _

/-- **The leading items of all are on the shortlist**, in whatever order the items came. -/
theorem leading_initial_shortlist (key : α → β) (size : α → ℕ) (limit room : ℕ) (es : List α) :
    leading size limit room (inOrder key es) <+: shortlist key size limit room es := by
  induction es using List.reverseRecOn with
  | nil =>
    cases limit <;> exact List.prefix_rfl
  | append_singleton es e ih =>
    rw [inOrder_append, shortlist_append]
    refine initial_leading ?_ (fits_leading ..)
    obtain ⟨rs, hrs⟩ := leading_initial size limit room (inOrder key es)
    obtain ⟨xs, hxs⟩ := ih
    have hordered := inOrder_pairwise key es
    have hsub := shortlist_sublist key size limit room es
    rw [← hrs, ← hxs, List.append_sublist_append_left] at hsub
    rw [← hrs, List.pairwise_append] at hordered
    have hplace := leading_place e hordered.2.1 hsub (by rw [hrs])
    rwa [hrs, hxs] at hplace

/-! ### What else is on it -/

section Within

variable {page : List α}

theorem within_mono {e c : α} (h : within key page c) (hle : key e ≤ key c) : within key page e := by
  obtain ⟨p, hp, hcp⟩ := List.any_eq_true.mp h
  exact List.any_eq_true.mpr ⟨p, hp, decide_eq_true (hle.trans (of_decide_eq_true hcp))⟩

theorem lt_of_within {e c : α} (he : within key page e) (hc : within key page c = false) : key e < key c := by
  by_contra hle
  rw [within_mono he (not_lt.mp hle)] at hc
  cases hc

/-- The shortlist is the items of the page that have come, and then what begins with the one that is kept. -/
structure Follows (key : α → β) (size : α → ℕ) (limit room : ℕ) (page es : List α) (b : Beside α) (qs xs : List α) :
    Prop where
  shortlist : shortlist key size limit room es = qs ++ xs
  perm : qs.Perm (es.filter (within key page))
  beyond : ∀ x ∈ xs, within key page x = false
  read : b.read.Perm qs
  kept : b.kept = xs.head?

theorem Follows.within {es : List α} {b : Beside α} {qs xs : List α}
    (h : Follows key size limit room page es b qs xs) : ∀ q ∈ qs, within key page q :=
  fun _ hq => (List.mem_filter.mp (h.perm.mem_iff.mp hq)).2

theorem follows (es : List α) (hfits : Fits size limit room (es.filter (within key page))) :
    ∃ qs xs, Follows key size limit room page es (es.foldl (beside key size limit room page) {}) qs xs := by
  induction es using List.reverseRecOn with
  | nil => exact ⟨[], [], rfl, .refl _, (fun _ hx => nomatch hx), .refl _, rfl⟩
  | append_singleton es e ih =>
    rw [List.filter_append] at hfits
    obtain ⟨qs, xs, h⟩ := ih (hfits.of_sublist (List.sublist_append_left _ _))
    rw [List.foldl_append, List.foldl_cons, List.foldl_nil]
    generalize es.foldl (beside key size limit room page) {} = b at h
    have hshort := shortlist_append key size limit room es e
    rw [h.shortlist] at hshort
    unfold beside
    cases he : Shortlist.within key page e with
    | true =>
      rw [if_pos rfl]
      have hplace : place key e (qs ++ xs) = place key e qs ++ xs :=
        place_append qs fun x hx => (lt_of_within he (h.beyond x hx)).le
      have hperm : (place key e qs).Perm ((es ++ [e]).filter (Shortlist.within key page)) := by
        rw [List.filter_append, List.filter_cons_of_pos he, List.filter_nil]
        exact (List.perm_orderedInsert _ e qs).trans ((h.perm.cons e).trans (List.perm_append_singleton _ _).symm)
      rw [List.filter_append] at hperm
      obtain ⟨zs, hzs, hinitial, hhead⟩ := leading_append (hfits.of_perm hperm) xs
      have hread : (e :: b.read).Perm (place key e qs) := (h.read.cons e).trans (List.perm_orderedInsert _ e qs).symm
      refine ⟨_, zs, by rw [hshort, hplace, hzs], ?_, fun x hx => h.beyond x (hinitial.subset hx), hread, ?_⟩
      · rw [List.filter_append]
        exact hperm
      · rw [hhead, ← h.kept]
        refine congrArg (Option.filter · b.kept) (funext fun y => decide_eq_decide.mpr (fits_perm ?_))
        exact (hread.cons y).trans (List.perm_append_singleton y _).symm
    | false =>
      rw [if_neg Bool.false_ne_true]
      have hplace : place key e (qs ++ xs) = qs ++ place key e xs :=
        place_append_of_lt xs fun q hq => lt_of_within (h.within q hq) he
      rw [List.filter_cons_of_neg (by rw [he]; exact Bool.false_ne_true), List.filter_nil, List.append_nil] at hfits
      have hqs := hfits.of_perm h.perm
      obtain ⟨zs, hzs, hinitial, hhead⟩ := leading_append hqs (place key e xs)
      refine ⟨qs, zs, by rw [hshort, hplace, hzs], ?_, fun x hx => ?_, ?_, ?_⟩
      · rw [List.filter_append, List.filter_cons_of_neg (by rw [he]; exact Bool.false_ne_true), List.filter_nil,
          List.append_nil]
        exact h.perm
      · obtain rfl | hx := (List.mem_orderedInsert _).mp (hinitial.subset hx)
        · exact he
        · exact h.beyond x hx
      · split <;> exact h.read
      · rw [hhead, h.kept]
        have hfirst : (if Fits size limit room (e :: b.read) then some e else none) =
            (some e).filter fun y => Fits size limit room (qs ++ [y]) := by
          have hiff : Fits size limit room (e :: b.read) ↔ Fits size limit room (qs ++ [e]) :=
            fits_perm ((h.read.cons e).trans (List.perm_append_singleton e qs).symm)
          simp only [hiff, Option.filter_some, decide_eq_true_eq]
        cases xs with
        | nil => exact hfirst
        | cons x xs =>
          by_cases hx : key x < key e
          · have hany : ((x :: xs).head?.any fun y => key y < key e) = true := decide_eq_true hx
            rw [if_pos hany, place, List.orderedInsert_cons, if_neg (not_le.mpr hx), List.head?_cons, Option.filter_some,
              if_pos]
            · exact h.kept
            · refine decide_eq_true ((fits_shortlist key size limit room es).of_sublist ?_)
              rw [h.shortlist]
              exact (List.append_sublist_append_left _).mpr (List.singleton_sublist.mpr List.mem_cons_self)
          · have hany : ¬ ((x :: xs).head?.any fun y => key y < key e) = true := by simpa using hx
            rw [if_neg hany, place, List.orderedInsert_cons, if_pos (not_lt.mp hx)]
            exact hfirst

end Within

/-! ### When nothing is left out -/

theorem within_self {cs : List α} {c : α} (h : c ∈ cs) : within key cs c :=
  List.any_eq_true.mpr ⟨c, h, decide_eq_true le_rfl⟩

theorem filter_within_self (cs : List α) : cs.filter (within key cs) = cs :=
  List.filter_eq_self.mpr fun _ hc => within_self hc

theorem not_within {cs : List α} {e : α} (h : ∀ c ∈ cs, key c < key e) : within key cs e = false := by
  refine List.any_eq_false.mpr fun c hc => ?_
  rw [decide_eq_true_eq]
  exact not_le.mpr (h c hc)

/-- The items up to the last one of the first page. -/
theorem firstPage_filter {es rest : List α} (hrest : firstPage key size limit room es ++ rest = inOrder key es)
    (hdistinct : (firstPage key size limit room es ++ rest.take 1).Pairwise fun a b => key a < key b) :
    (firstPage key size limit room es).Perm (es.filter (within key (firstPage key size limit room es))) := by
  have hnone : rest.filter (within key (firstPage key size limit room es)) = [] := by
    refine List.filter_eq_nil_iff.mpr fun e he => ?_
    cases rest with
    | nil => cases he
    | cons r rest =>
      have hordered := inOrder_pairwise key es
      rw [← hrest, List.pairwise_append] at hordered
      have hle := le_of_sublist hordered.2.1 (.refl _) e he
      rw [not_within fun c hc => lt_of_lt_of_le ((List.pairwise_append.mp hdistinct).2.2 c hc r List.mem_cons_self) hle]
      exact Bool.false_ne_true
  have hperm := (inOrder_perm key es).filter (within key (firstPage key size limit room es))
  rwa [← hrest, List.filter_append, filter_within_self, hnone, List.append_nil] at hperm

/-- With the items up to the last one of the page fitting, the shortlist is the page and what overhangs. -/
theorem shortlist_eq {es : List α} (hperm : (firstPage key size limit room es).Perm
      (es.filter (within key (firstPage key size limit room es)))) :
    ∃ xs, shortlist key size limit room es = firstPage key size limit room es ++ xs ∧
      xs.head? = overhang key size limit room (firstPage key size limit room es) es := by
  obtain ⟨qs, xs, h⟩ := follows es ((fits_leading size limit room (inOrder key es)).of_perm hperm.symm)
  have hinitial : firstPage key size limit room es <+: qs ++ xs := h.shortlist ▸ leading_initial_shortlist key size limit room es
  have hlength : (firstPage key size limit room es).length = qs.length := (hperm.trans h.perm.symm).length_eq
  have hpage : firstPage key size limit room es = qs :=
    (List.prefix_of_prefix_length_le hinitial (List.prefix_append qs xs) hlength.le).eq_of_length hlength
  exact ⟨xs, by rw [h.shortlist, hpage], h.kept.symm⟩

/-- A shortlist without a gap is all that comes up to its last item. -/
theorem complete_eq {es : List α} (h : Complete key (shortlist key size limit room es) es) :
    shortlist key size limit room es = (inOrder key es).filter (within key (shortlist key size limit room es)) := by
  have hsub := (shortlist_sublist key size limit room es).filter (within key (shortlist key size limit room es))
  rw [filter_within_self] at hsub
  exact hsub.eq_of_length (h.all.trans ((inOrder_perm key es).filter _).symm).length_eq

/-- **The shortlist has no gap if and only if nothing is left over.** -/
theorem complete_iff (es : List α) :
    Complete key (shortlist key size limit room es) es ↔ Closed key size limit room es := by
  obtain ⟨rest, hrest⟩ := leading_initial size limit room (inOrder key es)
  have htake : (inOrder key es).take ((firstPage key size limit room es).length + 1) =
      firstPage key size limit room es ++ rest.take 1 := by
    conv_lhs => rw [← hrest]
    exact List.take_length_add_append 1
  constructor
  · intro h
    obtain ⟨xs, hxs⟩ := leading_initial_shortlist key size limit room es
    have hall := complete_eq h
    rw [← hrest, List.filter_append, List.filter_eq_self.mpr fun p hp => within_self (hxs ▸ List.mem_append_left xs hp),
      ← hxs] at hall
    have hxs' := List.append_cancel_left hall
    rw [hxs] at hxs'
    -- the item after the page is not on the shortlist, and so none is
    have hbeyond : ∀ e ∈ rest, within key (shortlist key size limit room es) e = false := by
      cases rest with
      | nil => exact fun e he => nomatch he
      | cons r rest =>
        have hr : within key (shortlist key size limit room es) r = false := by
          by_contra hwithin
          rw [List.filter_cons_of_pos (by simpa using hwithin)] at hxs'
          refine not_fits_next _ rest r hrest ((fits_shortlist key size limit room es).of_sublist ?_)
          rw [← hxs, hxs']
          exact (List.append_sublist_append_left _).mpr (List.singleton_sublist.mpr List.mem_cons_self)
        have hordered := inOrder_pairwise key es
        rw [← hrest, List.pairwise_append] at hordered
        intro e he
        by_contra hwithin
        rw [within_mono (by simpa using hwithin) (le_of_sublist hordered.2.1 (.refl _) e he)] at hr
        cases hr
    have hpage : shortlist key size limit room es = firstPage key size limit room es := by
      have hnone := List.filter_eq_nil_iff.mpr fun e he => Bool.eq_false_iff.mp (hbeyond e he)
      rw [← hxs, hxs', hnone, List.append_nil]
      rfl
    have hdistinct : (firstPage key size limit room es ++ rest.take 1).Pairwise fun a b => key a < key b := by
      refine List.pairwise_append.mpr ⟨hpage ▸ h.increasing, ?_, fun p hp r hr => ?_⟩
      · cases rest with
        | nil => exact .nil
        | cons r rest => exact List.pairwise_singleton _ r
      · exact lt_of_within (within_self (hpage ▸ hp)) (hbeyond r (List.mem_of_mem_take hr))
    obtain ⟨ys, hys, hhead⟩ := shortlist_eq (firstPage_filter hrest hdistinct)
    rw [hpage] at hys
    refine ⟨by rw [htake]; exact hdistinct, ?_⟩
    rw [← hhead, List.self_eq_append_right.mp hys]
    rfl
  · intro h
    have hdistinct := h.distinct
    rw [htake] at hdistinct
    have hperm := firstPage_filter hrest hdistinct
    obtain ⟨xs, hxs, hhead⟩ := shortlist_eq hperm
    rw [h.level, List.head?_eq_none_iff] at hhead
    rw [hhead, List.append_nil] at hxs
    rw [hxs]
    exact ⟨(List.pairwise_append.mp hdistinct).1, hperm⟩

/-! ### Items that come in order -/

theorem walk_page {page : List α} (ps rs : List α) (h : ∀ p ∈ ps, within key page p) :
    ps.foldl (beside key size limit room page) { read := rs, kept := none } = ⟨ps.reverse ++ rs, none⟩ := by
  induction ps generalizing rs with
  | nil => rfl
  | cons p ps ih =>
    rw [List.forall_mem_cons] at h
    rw [List.foldl_cons, beside, if_pos h.1, List.reverse_cons, List.append_assoc]
    exact ih (p :: rs) h.2

theorem walk_kept {page es rs : List α} {y : α} (h : ∀ e ∈ es, within key page e = false ∧ key y < key e) :
    es.foldl (beside key size limit room page) ⟨rs, some y⟩ = ⟨rs, some y⟩ := by
  induction es with
  | nil => rfl
  | cons e es ih =>
    rw [List.forall_mem_cons] at h
    have hany : ((some y).any fun y => key y < key e) = true := decide_eq_true h.1.2
    rw [List.foldl_cons, beside, h.1.1, if_neg Bool.false_ne_true, if_pos hany]
    exact ih h.2

theorem walk_beyond {page es rs : List α} (hordered : es.Pairwise fun a b => key a < key b)
    (h : ∀ e ∈ es, within key page e = false) :
    (es.foldl (beside key size limit room page) ⟨rs, none⟩).kept = none ↔ ∀ e ∈ es, ¬ Fits size limit room (e :: rs) := by
  induction es with
  | nil => exact ⟨fun _ _ he => (nomatch he), fun _ => rfl⟩
  | cons e es ih =>
    rw [List.forall_mem_cons] at h ⊢
    obtain ⟨hfirst, hordered⟩ := List.pairwise_cons.mp hordered
    have hany : ¬ ((none : Option α).any fun y => key y < key e) = true := Bool.false_ne_true
    rw [List.foldl_cons, beside, h.1, if_neg Bool.false_ne_true, if_neg hany]
    by_cases hfits : Fits size limit room (e :: rs)
    · rw [if_pos hfits, walk_kept fun c hc => ⟨h.2 c hc, hfirst c hc⟩]
      exact ⟨fun hnone => (nomatch hnone), fun hall => absurd hfits hall.1⟩
    · rw [if_neg hfits, ih hordered h.2]
      exact (and_iff_right hfits).symm

/-- **Of items that come in order nothing is left over** if and only if none of the later ones fits beside the page. -/
theorem closed_iff_of_increasing {es : List α} (h : es.Pairwise fun a b => key a < key b) :
    Closed key size limit room es ↔ ∀ e ∈ es.drop (firstPage key size limit room es).length,
      ¬ Fits size limit room (firstPage key size limit room es ++ [e]) := by
  have hsame := inOrder_of_increasing h
  obtain ⟨rest, hrest⟩ : firstPage key size limit room es <+: es :=
    (leading_initial size limit room (inOrder key es)).trans ⟨[], (List.append_nil _).trans hsame⟩
  generalize hpage : firstPage key size limit room es = page at hrest
  subst hrest
  obtain ⟨-, hordered, hlast⟩ := List.pairwise_append.mp h
  have hlevel : overhang key size limit room page (page ++ rest) = none ↔
      ∀ e ∈ rest, ¬ Fits size limit room (e :: page.reverse) := by
    unfold overhang
    rw [List.foldl_append, walk_page page [] fun p hp => within_self hp, List.append_nil]
    exact walk_beyond hordered fun e he => not_within fun p hp => hlast p hp e he
  have hiff (e : α) : Fits size limit room (e :: page.reverse) ↔ Fits size limit room (page ++ [e]) :=
    fits_perm (((List.reverse_perm page).cons e).trans (List.perm_append_singleton e page).symm)
  simp only [hiff] at hlevel
  rw [List.drop_left, ← hlevel]
  refine ⟨fun hclosed => ?_, fun hnone => ⟨?_, by rw [hpage]; exact hnone⟩⟩
  · have hlevel := hclosed.level
    rwa [hpage] at hlevel
  rw [hsame]
  exact h.sublist (List.take_sublist _ _)

/-- Nothing is left over where all items fit. -/
theorem closed_of_fits {es : List α} (h : es.Pairwise fun a b => key a < key b) (hfits : Fits size limit room es) :
    Closed key size limit room es := by
  refine (closed_iff_of_increasing h).mpr fun e he => ?_
  rw [firstPage, inOrder_of_increasing h, leading_of_fits hfits, List.drop_length] at he
  cases he

end

end PowerMonitor.Lib.Shortlist
