import Mathlib.Data.Int.Notation
import Mathlib.Tactic.Common
import Mathlib.Tactic.SplitIfs

/-! # The replay window

A fixed table of digests of accepted requests, each with its time of acceptance. `remember` walks
the table once: it clears the entries older than the window, stops at a live entry with the digest,
and otherwise takes the first free place. An entry is live for the window *from its acceptance*.

* `remember_keeps`: an entry stays until a call more than the window after its acceptance.
* `remember_live`: as long as it stays, its digest is refused.
* `remember_fresh`: a call more than the window after all entries finds room. -/

namespace PowerMonitor.Security.Replay

inductive ReplayRememberResult
  | accepted | replayed | capacityExceeded
  deriving DecidableEq, Repr

/-- A place of the table. -/
structure Entry (Digest : Type) where
  used : Bool
  digest : Digest
  acceptedAt : Int64
  deriving DecidableEq

variable {Digest : Type}

/-- The time since the acceptance of an entry, zero if the clock stepped back. -/
def elapsed (acceptedAt : Int64) (e : Entry Digest) : ℕ :=
  if acceptedAt.toInt ≥ e.acceptedAt.toInt then (acceptedAt.toInt - e.acceptedAt.toInt).toNat else 0

/-- The first free place taken by `new`, if there is one. -/
def place (new : Entry Digest) : List (Entry Digest) → Option (List (Entry Digest))
  | [] => none
  | e :: es => if e.used then (place new es).map (e :: ·) else some (new :: es)

/-! ### Taking a place -/

theorem length_place {new : Entry Digest} : ∀ {es es' : List (Entry Digest)},
    place new es = some es' → es'.length = es.length
  | [], es', h => by simp [place] at h
  | e :: es, es', h => by
    unfold place at h
    split_ifs at h
    · obtain ⟨l, hl, rfl⟩ := Option.map_eq_some_iff.mp h
      simp [length_place hl]
    · obtain rfl := Option.some.inj h
      simp

theorem mem_place {new : Entry Digest} : ∀ {es es' : List (Entry Digest)},
    place new es = some es' → new ∈ es' ∧ ∀ e ∈ es, e.used = true → e ∈ es'
  | [], es', h => by simp [place] at h
  | e :: es, es', h => by
    unfold place at h
    split_ifs at h with hu
    · obtain ⟨l, hl, rfl⟩ := Option.map_eq_some_iff.mp h
      obtain ⟨h1, h2⟩ := mem_place hl
      refine ⟨List.mem_cons_of_mem _ h1, fun x hx hxu => ?_⟩
      rcases List.mem_cons.mp hx with rfl | hx
      · simp
      · exact List.mem_cons_of_mem _ (h2 x hx hxu)
    · obtain rfl := Option.some.inj h
      refine ⟨by simp, fun x hx hxu => ?_⟩
      rcases List.mem_cons.mp hx with rfl | hx
      · exact absurd hxu hu
      · exact List.mem_cons_of_mem _ hx

theorem place_entries {new : Entry Digest} : ∀ {es es' : List (Entry Digest)},
    place new es = some es' → ∀ e ∈ es', e = new ∨ e ∈ es
  | [], es', h => by simp [place] at h
  | x :: es, es', h => by
    intro e he
    unfold place at h
    split_ifs at h with hu
    · obtain ⟨l, hl, rfl⟩ := Option.map_eq_some_iff.mp h
      rcases List.mem_cons.mp he with rfl | he
      · simp
      · exact (place_entries hl e he).imp id (List.mem_cons_of_mem _)
    · obtain rfl := Option.some.inj h
      rcases List.mem_cons.mp he with rfl | he
      · exact Or.inl rfl
      · exact Or.inr (List.mem_cons_of_mem _ he)

/-! ### Expiry -/

variable [Inhabited Digest]

/-- A free place, as `Entry{}`. -/
def Entry.empty : Entry Digest := ⟨false, default, 0⟩

/-- The entry after the expiry check of the walk. -/
def expire (acceptedAt : Int64) (windowSeconds : ℕ) (e : Entry Digest) : Entry Digest :=
  if e.used ∧ elapsed acceptedAt e > windowSeconds then Entry.empty else e

theorem expire_eq {acceptedAt : Int64} {w : ℕ} {e : Entry Digest}
    (h : acceptedAt.toInt - e.acceptedAt.toInt ≤ w) : expire acceptedAt w e = e := by
  unfold expire elapsed
  rw [if_neg]
  rintro ⟨-, hlt⟩
  split_ifs at hlt <;> omega

theorem expire_used {acceptedAt : Int64} {w : ℕ} {e : Entry Digest}
    (h : (expire acceptedAt w e).used = true) : expire acceptedAt w e = e := by
  unfold expire at h ⊢
  split_ifs at h ⊢
  · simp [Entry.empty] at h
  · rfl

theorem expire_old {acceptedAt : Int64} {w : ℕ} {e : Entry Digest} (h : (w : ℤ) < acceptedAt.toInt - e.acceptedAt.toInt) :
    (expire acceptedAt w e).used = false := by
  unfold expire
  by_cases hu : e.used = true
  · rw [if_pos]
    · rfl
    · refine ⟨hu, ?_⟩
      unfold elapsed
      rw [if_pos (by omega)]
      omega
  · rw [if_neg (by simp [hu])]
    simpa using hu

/-! ### Remembering -/

variable [DecidableEq Digest]

/-- The walk: the table it leaves and whether it stopped at a live entry with the digest. -/
def walk (digest : Digest) (acceptedAt : Int64) (windowSeconds : ℕ) :
    List (Entry Digest) → List (Entry Digest) × Bool
  | [] => ([], false)
  | e :: es =>
    let e' := expire acceptedAt windowSeconds e
    if e'.used ∧ e'.digest = digest then (e' :: es, true)
    else
      let rest := walk digest acceptedAt windowSeconds es
      (e' :: rest.1, rest.2)

/-- The outcome on a table. -/
def rememberEntries (digest : Digest) (acceptedAt : Int64) (windowSeconds : ℕ)
    (entries : List (Entry Digest)) : List (Entry Digest) × ReplayRememberResult :=
  let walked := walk digest acceptedAt windowSeconds entries
  if walked.2 then (walked.1, .replayed)
  else
    match place ⟨true, digest, acceptedAt⟩ walked.1 with
    | none => (walked.1, .capacityExceeded)
    | some entries' => (entries', .accepted)

theorem length_walk (digest : Digest) (acceptedAt : Int64) (w : ℕ) (es : List (Entry Digest)) :
    (walk digest acceptedAt w es).1.length = es.length := by
  induction es with
  | nil => rfl
  | cons e es ih =>
    simp only [walk]
    split_ifs <;> simp [ih]

theorem length_rememberEntries (digest : Digest) (acceptedAt : Int64) (w : ℕ)
    (es : List (Entry Digest)) : (rememberEntries digest acceptedAt w es).1.length = es.length := by
  simp only [rememberEntries]
  split_ifs
  · exact length_walk ..
  · split
    · exact length_walk ..
    · next h => rw [length_place h, length_walk]

/-- The window: a table of fixed capacity. -/
structure AuthReplayWindow (Digest : Type) (capacity : ℕ) where
  entries : List (Entry Digest)
  size : entries.length = capacity

/-- The empty window. -/
def AuthReplayWindow.empty (capacity : ℕ) : AuthReplayWindow Digest capacity :=
  ⟨List.replicate capacity Entry.empty, by simp⟩

def remember {capacity : ℕ} (digest : Digest) (acceptedAt : Int64) (windowSeconds : ℕ)
    (window : AuthReplayWindow Digest capacity) :
    AuthReplayWindow Digest capacity × ReplayRememberResult :=
  let outcome := rememberEntries digest acceptedAt windowSeconds window.entries
  (⟨outcome.1, by rw [length_rememberEntries, window.size]⟩, outcome.2)

/-! ### What stays -/

theorem mem_walk {digest : Digest} {acceptedAt : Int64} {w : ℕ} {es : List (Entry Digest)}
    {e : Entry Digest} (he : e ∈ es) (hw : acceptedAt.toInt - e.acceptedAt.toInt ≤ w) :
    e ∈ (walk digest acceptedAt w es).1 := by
  induction es with
  | nil => simp at he
  | cons x es ih =>
    simp only [walk]
    rcases List.mem_cons.mp he with rfl | he
    · rw [expire_eq hw]
      split_ifs <;> simp
    · split_ifs
      · exact List.mem_cons_of_mem _ he
      · exact List.mem_cons_of_mem _ (ih he)

theorem walk_hit {digest : Digest} {acceptedAt : Int64} {w : ℕ} {es : List (Entry Digest)}
    {e : Entry Digest} (he : e ∈ es) (hw : acceptedAt.toInt - e.acceptedAt.toInt ≤ w)
    (hu : e.used = true) (hd : e.digest = digest) : (walk digest acceptedAt w es).2 = true := by
  induction es with
  | nil => simp at he
  | cons x es ih =>
    simp only [walk]
    rcases List.mem_cons.mp he with rfl | he
    · rw [expire_eq hw, if_pos ⟨hu, hd⟩]
    · split_ifs
      · rfl
      · exact ih he

section Window
variable {capacity : ℕ} {digest : Digest} {acceptedAt : Int64} {w : ℕ}
  {window : AuthReplayWindow Digest capacity}

/-- **An entry stays** while the calls come within the window of its acceptance. -/
theorem remember_keeps {e : Entry Digest} (he : e ∈ window.entries) (hu : e.used = true)
    (hw : acceptedAt.toInt - e.acceptedAt.toInt ≤ w) :
    e ∈ (remember digest acceptedAt w window).1.entries := by
  have hwalk : e ∈ (walk digest acceptedAt w window.entries).1 := mem_walk he hw
  simp only [remember, rememberEntries]
  split_ifs
  · exact hwalk
  · split
    · exact hwalk
    · next h => exact (mem_place h).2 e hwalk hu

/-- **A live digest is refused.** -/
theorem remember_live {e : Entry Digest} (he : e ∈ window.entries) (hu : e.used = true)
    (hw : acceptedAt.toInt - e.acceptedAt.toInt ≤ w) (hd : e.digest = digest) :
    (remember digest acceptedAt w window).2 = .replayed := by
  simp only [remember, rememberEntries]
  rw [if_pos (walk_hit he hw hu hd)]

/-- An accepted digest has an entry. -/
theorem remember_accepted (h : (remember digest acceptedAt w window).2 = .accepted) :
    ⟨true, digest, acceptedAt⟩ ∈ (remember digest acceptedAt w window).1.entries := by
  simp only [remember, rememberEntries] at h ⊢
  split_ifs at h ⊢
  split at h
  · cases h
  · next hp =>
    simp only
    exact (mem_place hp).1

/-! ### What is in the table -/

theorem walk_entries {es : List (Entry Digest)} {e : Entry Digest}
    (he : e ∈ (walk digest acceptedAt w es).1) (hu : e.used = true) : e ∈ es := by
  induction es with
  | nil => simp [walk] at he
  | cons x es ih =>
    simp only [walk] at he
    split_ifs at he
    all_goals
      rcases List.mem_cons.mp he with rfl | he
      · rw [expire_used hu]; simp
    · exact List.mem_cons_of_mem _ he
    · exact List.mem_cons_of_mem _ (ih he)

/-- The live entries are old ones and the one just made. -/
theorem remember_entries {e : Entry Digest}
    (he : e ∈ (remember digest acceptedAt w window).1.entries) (hu : e.used = true) :
    e = ⟨true, digest, acceptedAt⟩ ∨ e ∈ window.entries := by
  simp only [remember, rememberEntries] at he
  split_ifs at he
  · exact Or.inr (walk_entries he hu)
  · split at he
    · exact Or.inr (walk_entries he hu)
    · next h =>
      rcases place_entries h e he with rfl | he
      · exact Or.inl rfl
      · exact Or.inr (walk_entries he hu)

/-! ### Room -/

theorem walk_old {es : List (Entry Digest)}
    (h : ∀ e ∈ es, e.used = true → (w : ℤ) < acceptedAt.toInt - e.acceptedAt.toInt) :
    (walk digest acceptedAt w es).2 = false ∧
      ∀ e ∈ (walk digest acceptedAt w es).1, e.used = false := by
  induction es with
  | nil => simp [walk]
  | cons x es ih =>
    have hx : (expire acceptedAt w x).used = false := by
      by_cases hu : x.used = true
      · exact expire_old (h x (by simp) hu)
      · have : expire acceptedAt w x = x := by
          unfold expire; rw [if_neg (by simp [hu])]
        rw [this]; simpa using hu
    obtain ⟨h1, h2⟩ := ih fun e he => h e (by simp [he])
    simp only [walk]
    rw [if_neg (by simp [hx])]
    exact ⟨h1, by simpa [hx] using h2⟩

/-- **Once every entry is older than the window, any digest is accepted.** -/
theorem remember_fresh (hc : 0 < capacity)
    (h : ∀ e ∈ window.entries, e.used = true → (w : ℤ) < acceptedAt.toInt - e.acceptedAt.toInt) :
    (remember digest acceptedAt w window).2 = .accepted := by
  obtain ⟨h1, h2⟩ : (walk digest acceptedAt w window.entries).2 = false ∧
      ∀ e ∈ (walk digest acceptedAt w window.entries).1, e.used = false := walk_old h
  have hlen := length_walk digest acceptedAt w window.entries
  simp only [remember, rememberEntries]
  rw [if_neg (by simp [h1])]
  match hwalk : (walk digest acceptedAt w window.entries).1 with
  | [] => rw [hwalk, window.size] at hlen; simp at hlen; omega
  | e :: es =>
    have : e.used = false := h2 e (by rw [hwalk]; simp)
    simp [place, this]

end Window

end PowerMonitor.Security.Replay
