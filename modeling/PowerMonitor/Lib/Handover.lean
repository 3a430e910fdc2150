import Mathlib.Data.Finset.Card
import Mathlib.Data.Finset.Dedup
import Mathlib.Data.List.Nodup
import Mathlib.Logic.Function.Basic

/-! # Handing values over in numbered places

Any number of givers hand values over to one taker. A giver takes a free place into its hand, writes a value there and
puts the place in line when it is ready; the taker takes the places off the line in their order, holds some of them, and
frees each when it likes. A giver may also give its place back.

* `Step.inv`: what one step keeps. Every place in use has one owner: the hand of one giver, the line, or the taker.
* `Inv.order`: what was given is what was taken and what is in line, in this order.
* `Inv.length_held_le`: the taker never holds more places than there are. -/

namespace PowerMonitor.Lib.Handover

variable {T I V : Type*}

/-- The places, the hands of the givers with what is ready there, the line, and what the taker holds, with the values it
found there. -/
structure State (T I V : Type*) where
  used : I → Bool
  value : I → V
  hand : T → Option I
  ready : T → Option V
  line : List I
  held : List (I × V)
  given : List V
  taken : List V

/-- The places that are out of the givers' hands. -/
def State.away (s : State T I V) : List I := s.line ++ s.held.map Prod.fst

/-- What every run keeps, for a set of places. -/
structure Inv (places : Set I) (s : State T I V) : Prop where
  used : ∀ i, s.used i = true ↔ (∃ t, s.hand t = some i) ∨ i ∈ s.away
  within : ∀ i, s.used i = true → i ∈ places
  hands : ∀ t t' i, s.hand t = some i → s.hand t' = some i → t = t'
  apart : ∀ t i, s.hand t = some i → i ∉ s.away
  ready : ∀ t i v, s.hand t = some i → s.ready t = some v → s.value i = v
  nodup : s.away.Nodup
  kept : ∀ p ∈ s.held, s.value p.1 = p.2
  order : s.given = s.taken ++ s.line.map s.value

variable {places : Set I} {s s' : State T I V}

theorem inv_initial {value : I → V} :
    Inv places (⟨fun _ => false, value, fun _ : T => none, fun _ => none, [], [], [], []⟩ : State T I V) := by
  refine ⟨fun i => ?_, fun i h => ?_, fun t t' i h => ?_, fun t i h => ?_, fun t i v h => ?_, List.nodup_nil,
    fun p hp => ?_, rfl⟩
  · simp [State.away]
  · cases h
  · cases h
  · cases h
  · cases h
  · cases hp

theorem Inv.used_hand (h : Inv places s) {t : T} {i : I} (ht : s.hand t = some i) : s.used i = true :=
  (h.used i).mpr (Or.inl ⟨t, ht⟩)

theorem Inv.used_line (h : Inv places s) {i : I} (hi : i ∈ s.line) : s.used i = true :=
  (h.used i).mpr (Or.inr (List.mem_append_left _ hi))

theorem Inv.used_held (h : Inv places s) {p : I × V} (hp : p ∈ s.held) : s.used p.1 = true :=
  (h.used p.1).mpr (Or.inr (List.mem_append_right _ (List.mem_map_of_mem hp)))

/-- The taker has no more places of a kind than there are. -/
theorem Inv.length_held_le (h : Inv places s) [DecidableEq I] {part : Finset I} (hpart : ∀ p ∈ s.held, p.1 ∈ part) :
    s.held.length ≤ part.card := by
  have hsub : (s.held.map Prod.fst).toFinset ⊆ part := by
    intro i hi
    obtain ⟨p, hp, rfl⟩ := List.mem_map.mp (List.mem_toFinset.mp hi)
    exact hpart p hp
  have hcard := Finset.card_le_card hsub
  rwa [List.toFinset_card_of_nodup (List.nodup_append.mp h.nodup).2.1, List.length_map] at hcard

variable [DecidableEq T] [DecidableEq I]

/-- One step of a giver or of the taker. -/
inductive Step (places : Set I) (s : State T I V) : State T I V → Prop
  | acquire (t : T) (i : I) (hi : i ∈ places) (hempty : s.hand t = none) (hfree : s.used i = false) :
      Step places s { s with
        used := Function.update s.used i true
        hand := Function.update s.hand t (some i)
        ready := Function.update s.ready t none }
  | write (t : T) (i : I) (v : V) (o : Option V) (h : s.hand t = some i) (ho : ∀ v', o = some v' → v = v') :
      Step places s { s with value := Function.update s.value i v, ready := Function.update s.ready t o }
  | withdraw (t : T) : Step places s { s with ready := Function.update s.ready t none }
  | give (t : T) (i : I) (v : V) (h : s.hand t = some i) (hready : s.ready t = some v) :
      Step places s { s with
        hand := Function.update s.hand t none
        ready := Function.update s.ready t none
        line := s.line ++ [i]
        given := s.given ++ [v] }
  | back (t : T) (i : I) (h : s.hand t = some i) :
      Step places s { s with
        used := Function.update s.used i false
        hand := Function.update s.hand t none
        ready := Function.update s.ready t none }
  | take (i : I) (line : List I) (h : s.line = i :: line) :
      Step places s { s with line := line, held := s.held ++ [(i, s.value i)], taken := s.taken ++ [s.value i] }
  | free (p : I × V) (before after : List (I × V)) (h : s.held = before ++ p :: after) :
      Step places s { s with used := Function.update s.used p.1 false, held := before ++ after }
  | stutter : Step places s s

omit [DecidableEq I] in
theorem update_eq_some {β : Type*} {f : T → Option β} {t t' : T} {b : β} {o : Option β}
    (h : Function.update f t o t' = some b) : t' = t ∧ o = some b ∨ t' ≠ t ∧ f t' = some b := by
  by_cases ht : t' = t
  · subst ht
    rw [Function.update_self] at h
    exact Or.inl ⟨rfl, h⟩
  · rw [Function.update_of_ne ht] at h
    exact Or.inr ⟨ht, h⟩

omit [DecidableEq I] in
/-- Who else has a place when a giver's hand changes. -/
theorem exists_hand_update {hand : T → Option I} {t : T} {o : Option I} {i : I} :
    (∃ t', Function.update hand t o t' = some i) ↔ o = some i ∨ ∃ t', t' ≠ t ∧ hand t' = some i := by
  constructor
  · rintro ⟨t', h⟩
    rcases update_eq_some h with ⟨-, h⟩ | ⟨hne, h⟩
    · exact Or.inl h
    · exact Or.inr ⟨t', hne, h⟩
  · rintro (h | ⟨t', hne, h⟩)
    · exact ⟨t, by rw [Function.update_self, h]⟩
    · exact ⟨t', by rw [Function.update_of_ne hne, h]⟩

omit [DecidableEq T] in
theorem used_of_update_false {used : I → Bool} {i k : I} (h : Function.update used i false k = true) :
    used k = true := by
  by_cases hki : k = i
  · rw [hki, Function.update_self] at h
    cases h
  · rwa [Function.update_of_ne hki] at h

omit [DecidableEq I] in
/-- One giver less is ready, and the others have what they had. -/
theorem Inv.ready_none (h : Inv places s) {t : T} {hand : T → Option I} (hsame : ∀ t', t' ≠ t → hand t' = s.hand t') :
    ∀ t' i v, hand t' = some i → Function.update s.ready t none t' = some v → s.value i = v := by
  intro t' i v hhand hready
  rcases update_eq_some hready with ⟨-, hnone⟩ | ⟨hne, hready⟩
  · cases hnone
  · exact h.ready t' i v ((hsame t' hne).symm.trans hhand) hready

omit [DecidableEq I] in
/-- A giver has nothing in its hand any more. -/
theorem Inv.hands_none (h : Inv places s) {t : T} : ∀ t1 t2 i, Function.update s.hand t none t1 = some i →
    Function.update s.hand t none t2 = some i → t1 = t2 := by
  intro t1 t2 i h1 h2
  rcases update_eq_some h1 with ⟨-, h1⟩ | ⟨-, h1⟩
  · cases h1
  · rcases update_eq_some h2 with ⟨-, h2⟩ | ⟨-, h2⟩
    · cases h2
    · exact h.hands t1 t2 i h1 h2

/-- **What one step keeps.** -/
theorem Step.inv (hstep : Step places s s') (h : Inv places s) : Inv places s' := by
  cases hstep with
  | acquire t i hi hempty hfree =>
    have hnew : ¬ ((∃ t, s.hand t = some i) ∨ i ∈ s.away) := fun hi => by
      rw [(h.used i).mpr hi] at hfree
      cases hfree
    refine ⟨fun k => ?_, fun k hk => ?_, fun t1 t2 k h1 h2 => ?_, fun t1 k h1 hk => ?_,
      h.ready_none fun t' hne => Function.update_of_ne hne _ _, h.nodup, h.kept, h.order⟩
    · show Function.update s.used i true k = true ↔ _ ∨ k ∈ s.away
      rw [exists_hand_update]
      by_cases hki : k = i
      · subst hki
        simp
      · have hne : some i ≠ some k := fun hsome => hki (Option.some.inj hsome).symm
        have hother : (∃ t', t' ≠ t ∧ s.hand t' = some k) ↔ ∃ t', s.hand t' = some k := by
          constructor
          · exact fun ⟨t', _, ht'⟩ => ⟨t', ht'⟩
          · rintro ⟨t', ht'⟩
            refine ⟨t', ?_, ht'⟩
            rintro rfl
            rw [hempty] at ht'
            cases ht'
        rw [Function.update_of_ne hki, h.used k, hother]
        simp only [hne, false_or]
    · by_cases hki : k = i
      · rw [hki]
        exact hi
      · exact h.within k ((Function.update_of_ne hki _ _).symm.trans hk)
    · rcases update_eq_some h1 with ⟨e1, g1⟩ | ⟨-, g1⟩ <;> rcases update_eq_some h2 with ⟨e2, g2⟩ | ⟨-, g2⟩
      · rw [e1, e2]
      · exact absurd (Or.inl ⟨t2, g2.trans g1.symm⟩) hnew
      · exact absurd (Or.inl ⟨t1, g1.trans g2.symm⟩) hnew
      · exact h.hands t1 t2 k g1 g2
    · rcases update_eq_some h1 with ⟨-, g1⟩ | ⟨-, g1⟩
      · rw [← Option.some.inj g1] at hk
        exact hnew (Or.inr hk)
      · exact h.apart t1 k g1 hk
  | write t i v o ht ho =>
    have hne : ∀ k ∈ s.away, k ≠ i := by
      rintro k hk rfl
      exact h.apart t k ht hk
    refine ⟨h.used, h.within, h.hands, h.apart, fun t1 k u h1 hready => ?_, h.nodup, fun p hp => ?_, ?_⟩
    · show Function.update s.value i v k = u
      rcases update_eq_some hready with ⟨rfl, rfl⟩ | ⟨hother, hready⟩
      · have hki : k = i := Option.some.inj (h1.symm.trans ht)
        rw [hki, Function.update_self, ho u rfl]
      · have hki : k ≠ i := by
          rintro rfl
          exact hother (h.hands t1 t k h1 ht)
        rw [Function.update_of_ne hki]
        exact h.ready t1 k u h1 hready
    · show Function.update s.value i v p.1 = p.2
      rw [Function.update_of_ne (hne _ (List.mem_append_right _ (List.mem_map_of_mem hp)))]
      exact h.kept p hp
    · rw [h.order]
      refine congrArg _ (List.map_congr_left fun k hk => ?_)
      exact (Function.update_of_ne (hne k (List.mem_append_left _ hk)) _ _).symm
  | withdraw t =>
    exact ⟨h.used, h.within, h.hands, h.apart, h.ready_none fun _ _ => rfl, h.nodup, h.kept, h.order⟩
  | give t i v ht hready =>
    have haway : ∀ k, k ∈ (s.line ++ [i]) ++ s.held.map Prod.fst ↔ k = i ∨ k ∈ s.away := by
      intro k
      simp only [State.away, List.mem_append, List.mem_singleton]
      tauto
    refine ⟨fun k => ?_, h.within, h.hands_none, fun t1 k h1 hk => ?_,
      h.ready_none fun t' hne => Function.update_of_ne hne _ _, ?_, h.kept, ?_⟩
    · show s.used k = true ↔ _ ∨ k ∈ (s.line ++ [i]) ++ s.held.map Prod.fst
      rw [exists_hand_update, haway, h.used k]
      constructor
      · rintro (⟨t', ht'⟩ | hk)
        · by_cases hsame : t' = t
          · rw [hsame, ht] at ht'
            exact Or.inr (Or.inl (Option.some.inj ht').symm)
          · exact Or.inl (Or.inr ⟨t', hsame, ht'⟩)
        · exact Or.inr (Or.inr hk)
      · rintro ((hnone | ⟨t', -, ht'⟩) | rfl | hk)
        · cases hnone
        · exact Or.inl ⟨t', ht'⟩
        · exact Or.inl ⟨t, ht⟩
        · exact Or.inr hk
    · rcases update_eq_some h1 with ⟨-, g1⟩ | ⟨hne, g1⟩
      · cases g1
      · rcases (haway k).mp hk with rfl | hk
        · exact hne (h.hands t1 t k g1 ht)
        · exact h.apart t1 k g1 hk
    · show ((s.line ++ [i]) ++ s.held.map Prod.fst).Nodup
      have hperm : ((s.line ++ [i]) ++ s.held.map Prod.fst).Perm (i :: s.away) := by
        rw [List.append_assoc, List.singleton_append]
        exact List.perm_middle
      exact hperm.nodup_iff.mpr (List.nodup_cons.mpr ⟨h.apart t i ht, h.nodup⟩)
    · show s.given ++ [v] = s.taken ++ (s.line ++ [i]).map s.value
      rw [h.order, List.map_append, List.append_assoc, ← h.ready t i v ht hready]
      rfl
  | back t i ht =>
    have hgone : ∀ k, k ≠ i → ((∃ t', t' ≠ t ∧ s.hand t' = some k) ↔ ∃ t', s.hand t' = some k) := by
      intro k hki
      constructor
      · exact fun ⟨t', _, ht'⟩ => ⟨t', ht'⟩
      · rintro ⟨t', ht'⟩
        refine ⟨t', ?_, ht'⟩
        rintro rfl
        rw [ht] at ht'
        exact hki (Option.some.inj ht').symm
    refine ⟨fun k => ?_, fun k hk => ?_, h.hands_none, fun t1 k h1 => ?_,
      h.ready_none fun t' hne => Function.update_of_ne hne _ _, h.nodup, h.kept, h.order⟩
    · show Function.update s.used i false k = true ↔ _ ∨ k ∈ s.away
      rw [exists_hand_update]
      by_cases hki : k = i
      · subst hki
        rw [Function.update_self]
        refine ⟨fun hfalse => (by cases hfalse), ?_⟩
        rintro ((hnone | ⟨t', hne, ht'⟩) | hk)
        · cases hnone
        · exact absurd (h.hands t' t k ht' ht) hne
        · exact absurd hk (h.apart t k ht)
      · rw [Function.update_of_ne hki, h.used k, hgone k hki]
        simp
    · exact h.within k (used_of_update_false hk)
    · rcases update_eq_some h1 with ⟨-, h1⟩ | ⟨-, h1⟩
      · cases h1
      · exact h.apart t1 k h1
  | take i line hline =>
    have hperm : (line ++ (s.held ++ [(i, s.value i)]).map Prod.fst).Perm s.away := by
      rw [State.away, hline, List.map_append, ← List.append_assoc]
      exact List.perm_append_singleton _ _
    refine ⟨fun k => ?_, h.within, h.hands, fun t k ht hk => h.apart t k ht (hperm.mem_iff.mp hk), h.ready,
      hperm.nodup_iff.mpr h.nodup, fun p hp => ?_, ?_⟩
    · exact (h.used k).trans (or_congr_right hperm.mem_iff.symm)
    · rcases List.mem_append.mp hp with hp | hp
      · exact h.kept p hp
      · rw [List.mem_singleton.mp hp]
    · show s.given = (s.taken ++ [s.value i]) ++ line.map s.value
      rw [h.order, hline, List.append_assoc]
      rfl
  | free p before after hheld =>
    have hperm : s.away.Perm (p.1 :: (s.line ++ (before ++ after).map Prod.fst)) := by
      rw [State.away, hheld, List.map_append, List.map_append, List.map_cons, ← List.append_assoc,
        ← List.append_assoc]
      exact List.perm_middle
    obtain ⟨hnot, hnodup⟩ := List.nodup_cons.mp (hperm.nodup_iff.mp h.nodup)
    refine ⟨fun k => ?_, fun k hk => h.within k (used_of_update_false hk), h.hands, fun t k ht hk => ?_, h.ready, hnodup,
      fun q hq => ?_, h.order⟩
    · show Function.update s.used p.1 false k = true ↔ _ ∨ k ∈ s.line ++ (before ++ after).map Prod.fst
      by_cases hkp : k = p.1
      · subst hkp
        rw [Function.update_self]
        refine ⟨fun hfalse => (by cases hfalse), ?_⟩
        rintro (⟨t, ht⟩ | hk)
        · exact absurd (hperm.mem_iff.mpr List.mem_cons_self) (h.apart t _ ht)
        · exact absurd hk hnot
      · rw [Function.update_of_ne hkp, h.used k, hperm.mem_iff, List.mem_cons]
        simp only [hkp, false_or]
    · exact h.apart t k ht (hperm.mem_iff.mpr (List.mem_cons_of_mem _ hk))
    · refine h.kept q ?_
      rw [hheld]
      rcases List.mem_append.mp hq with hq | hq
      · exact List.mem_append_left _ hq
      · exact List.mem_append_right _ (List.mem_cons_of_mem _ hq)
  | stutter => exact h

end PowerMonitor.Lib.Handover
