import PowerMonitor.Config.AtomicConfigStore
import PowerMonitor.Lib.Steady

/-! # Committing is atomic

Whatever the three keys hold, a commit that loses power before any of its operations, or any of whose
writes goes wrong, leaves in force either what was in force or the new payload; the new payload when
it reports success, what was in force when it reports failure (`commit_atomic`).

* `commit_wp`: what a commit may leave in the two slots at any moment (`CommitState`) and at its end.
* `activePayload_of_none`: with one slot invalid, the other one is in force, whatever the marker.
* `activePayload_of_newest`: with one slot strictly newer than the other, one of the two is in force,
  and the newer one unless the marker matches the other. -/

namespace PowerMonitor.Config.CommitAtomic

open PowerMonitor.Lib.Binary PowerMonitor.Lib.Program PowerMonitor.Lib.Steady
open PowerMonitor.Config.AtomicConfigStore

/-! ### The frames read back -/

theorem length_encodeRecord (generation : ℕ) (payload : Bytes) :
    (encodeRecord generation payload).length = recordHeaderSize + payload.length := by
  simp only [encodeRecord, List.length_append, length_leBytes, recordHeaderSize]
  omega

theorem crc_lt (data : Bytes) : (crc32 data).toNat < 256 ^ 4 := (crc32 data).toNat_lt

theorem decodeRecord_encodeRecord {generation : ℕ} {payload : Bytes} (h0 : generation ≠ 0)
    (h64 : generation < 2 ^ 64) (hlen : payload.length ≤ maximumPayloadSize) :
    decodeRecord (encodeRecord generation payload) = some (generation, payload) := by
  have hl := length_encodeRecord generation payload
  have h1 : readLe 4 (encodeRecord generation payload) 0 = some recordMagic :=
    readLe_append [] _ rfl (by decide)
  have h2 : readLe 2 (encodeRecord generation payload) 4 = some formatVersion :=
    readLe_append _ _ (by simp) (by decide)
  have h3 : readLe 8 (encodeRecord generation payload) 8 = some generation := by
    have := readLe_append (leBytes 4 recordMagic ++ (leBytes 2 formatVersion ++ leBytes 2 0))
      (leBytes 4 payload.length ++ (leBytes 4 (crc32 (recordCrcMaterial generation payload)).toNat ++ payload))
      (show 8 = _ by simp) (show generation < 256 ^ 8 by omega)
    simpa [encodeRecord] using this
  have h4 : readLe 4 (encodeRecord generation payload) 16 = some payload.length := by
    have := readLe_append (leBytes 4 recordMagic ++ (leBytes 2 formatVersion ++ (leBytes 2 0 ++
        leBytes 8 generation)))
      (leBytes 4 (crc32 (recordCrcMaterial generation payload)).toNat ++ payload) (show 16 = _ by simp)
      (show payload.length < 256 ^ 4 by unfold maximumPayloadSize at hlen; omega)
    simpa [encodeRecord] using this
  have h5 : readLe 4 (encodeRecord generation payload) 20 =
      some (crc32 (recordCrcMaterial generation payload)).toNat := by
    have := readLe_append (leBytes 4 recordMagic ++ (leBytes 2 formatVersion ++ (leBytes 2 0 ++
        (leBytes 8 generation ++ leBytes 4 payload.length))))
      payload (show 20 = _ by simp) (crc_lt (recordCrcMaterial generation payload))
    simpa [encodeRecord] using this
  have h6 : (encodeRecord generation payload).drop recordHeaderSize = payload := by
    have : encodeRecord generation payload = (leBytes 4 recordMagic ++ (leBytes 2 formatVersion ++
        (leBytes 2 0 ++ (leBytes 8 generation ++ (leBytes 4 payload.length ++
          leBytes 4 (crc32 (recordCrcMaterial generation payload)).toNat))))) ++ payload := by
      simp [encodeRecord]
    rw [this]
    exact List.drop_left' (by simp [recordHeaderSize])
  unfold decodeRecord
  rw [if_neg (by omega), h1, h2, h3, h4, h5]
  simp [h0, hl, h6, Nat.not_lt.mpr hlen]

theorem length_encodeMarker (slot : Slot) (generation : ℕ) :
    (encodeMarker slot generation).length = markerSize := by
  simp [encodeMarker, markerSize]

theorem decodeMarker_encodeMarker {slot : Slot} {generation : ℕ} (h0 : generation ≠ 0)
    (h64 : generation < 2 ^ 64) : decodeMarker (encodeMarker slot generation) = some (slot, generation) := by
  have h1 : readLe 4 (encodeMarker slot generation) 0 = some markerMagic :=
    readLe_append [] _ rfl (by decide)
  have h2 : readLe 2 (encodeMarker slot generation) 4 = some formatVersion :=
    readLe_append _ _ (by simp) (by decide)
  have h3 : readLe 8 (encodeMarker slot generation) 8 = some generation := by
    have := readLe_append (leBytes 4 markerMagic ++ (leBytes 2 formatVersion ++ [slot.byte, 0]))
      (leBytes 4 (crc32 (markerCrcMaterial slot generation)).toNat) (show 8 = _ by simp)
      (show generation < 256 ^ 8 by omega)
    simpa [encodeMarker] using this
  have h4 : readLe 4 (encodeMarker slot generation) 16 =
      some (crc32 (markerCrcMaterial slot generation)).toNat := by
    have := readLe_append (leBytes 4 markerMagic ++ (leBytes 2 formatVersion ++
        ([slot.byte, 0] ++ leBytes 8 generation)))
      [] (show 16 = _ by simp) (crc_lt (markerCrcMaterial slot generation))
    simpa [encodeMarker] using this
  have h5 : (encodeMarker slot generation).getD 6 0 = slot.byte := by
    simp only [encodeMarker, leBytes, List.cons_append, List.nil_append, List.getD_cons_succ,
      List.getD_cons_zero]
  have h6 : Slot.ofByte slot.byte = some slot := by cases slot <;> rfl
  unfold decodeMarker
  rw [if_neg (by simp [length_encodeMarker]), h1, h2, h3, h4, h5]
  simp [h0, h6]

/-- A decoded generation is positive and fits its field. -/
theorem decodeRecord_generation {encoded payload : Bytes} {generation : ℕ}
    (h : decodeRecord encoded = some (generation, payload)) :
    generation ≠ 0 ∧ generation < 2 ^ 64 := by
  unfold decodeRecord at h
  split_ifs at h
  simp only [Option.bind_eq_bind, Option.bind_eq_some_iff] at h
  obtain ⟨_, -, _, -, g, hg, _, -, _, -, h⟩ := h
  have hlt := readLe_lt hg
  split_ifs at h with hc hcrc
  obtain ⟨rfl, -⟩ := Prod.mk.inj (Option.some.inj h)
  simp only [not_or] at hc
  exact ⟨hc.2.2.1, by omega⟩

/-! ### What is in force -/

/-- The decoding of a slot of the store. -/
def slotOf (s : Store) (slot : Slot) : Option DecodedSlot := decodeSlot slot (s (slotKey slot))

/-- The decoding of the marker. -/
def markerOf (s : Store) : Option (Slot × ℕ) := (s .active).bind decodeMarker

/-- What `loadActive` yields on a content. -/
def loadActiveOf (s : Store) : Option LoadResult :=
  selectActive (slotOf s .a) (slotOf s .b) (markerOf s)

/-- The payload in force, if any. -/
def activePayload (s : Store) : Option Bytes := (loadActiveOf s).map LoadResult.payload

theorem slotKey_other (t : Slot) : slotKey t.other ≠ slotKey t := by cases t <;> simp [slotKey, Slot.other]

theorem slotKey_ne_active (t : Slot) : slotKey t ≠ .active := by cases t <;> simp [slotKey]

theorem other_other (t : Slot) : t.other.other = t := by cases t <;> rfl

theorem slotOf_update_same (s : Store) (t : Slot) (v : Option Bytes) :
    slotOf (Function.update s (slotKey t) v) t = decodeSlot t v := by
  simp [slotOf]

theorem slotOf_update_other (s : Store) (t : Slot) (v : Option Bytes) :
    slotOf (Function.update s (slotKey t) v) t.other = slotOf s t.other := by
  simp [slotOf, slotKey_other]

theorem slotOf_update_active (s : Store) (t : Slot) (v : Option Bytes) :
    slotOf (Function.update s .active v) t = slotOf s t := by
  simp [slotOf, slotKey_ne_active]

theorem decodeSlot_slot {t : Slot} {v : Option Bytes} {d : DecodedSlot} (h : decodeSlot t v = some d) :
    d.slot = t := by
  obtain ⟨r, -, rfl⟩ := Option.map_eq_some_iff.mp h
  rfl

theorem slotOf_generation {s : Store} {t : Slot} {d : DecodedSlot} (h : slotOf s t = some d) :
    d.generation ≠ 0 ∧ d.generation < 2 ^ 64 := by
  obtain ⟨r, hr, rfl⟩ := Option.map_eq_some_iff.mp h
  obtain ⟨v, -, hv⟩ := Option.bind_eq_some_iff.mp hr
  exact decodeRecord_generation hv

/-- The slot in force, by the slots and the marker. -/
theorem loadActiveOf_cases (s : Store) (t : Slot) :
    (∃ d, slotOf s t = some d ∧ markerOf s = some (t, d.generation) ∧
      loadActiveOf s = some ⟨false, d.slot, d.generation, d.payload⟩) ∨
    (∃ d, slotOf s t.other = some d ∧ markerOf s = some (t.other, d.generation) ∧
      loadActiveOf s = some ⟨false, d.slot, d.generation, d.payload⟩) ∨
    loadActiveOf s = (newestValid (slotOf s .a) (slotOf s .b)).map
      fun d => ⟨true, d.slot, d.generation, d.payload⟩ := by
  unfold loadActiveOf selectActive
  cases hm : markerOf s with
  | none => right; right; rfl
  | some m =>
    obtain ⟨x, g⟩ := m
    have hx : markedSlot (slotOf s .a) (slotOf s .b) (some (x, g)) =
        (slotOf s x).filter fun d => d.generation = g := by cases x <;> rfl
    rw [hx]
    cases hd : (slotOf s x).filter fun d => decide (d.generation = g) with
    | none => right; right; rfl
    | some d =>
      obtain ⟨hs, hg⟩ := Option.filter_eq_some_iff.mp hd
      obtain rfl : d.generation = g := by simpa using hg
      by_cases hxt : x = t
      · subst hxt; left; exact ⟨d, hs, rfl, rfl⟩
      · obtain rfl : x = t.other := by revert hxt; cases x <;> cases t <;> simp [Slot.other]
        right; left; exact ⟨d, hs, rfl, rfl⟩

/-- The newest valid slot, seen from one of them. -/
theorem newestValid_cases (s : Store) (t : Slot) :
    (slotOf s t = none → newestValid (slotOf s .a) (slotOf s .b) = slotOf s t.other) ∧
    (∀ d, slotOf s t = some d → (∀ o, slotOf s t.other = some o → o.generation < d.generation) →
      newestValid (slotOf s .a) (slotOf s .b) = some d) := by
  cases t with
  | a =>
    refine ⟨fun h => by rw [h]; rfl, fun d h ho => ?_⟩
    rw [h]
    cases hb : slotOf s .b with
    | none => rfl
    | some o => have := ho o hb; simp only [newestValid]; rw [if_pos (by omega)]
  | b =>
    refine ⟨fun h => by rw [h]; cases ha : slotOf s .a <;> simp [Slot.other, newestValid, ha],
      fun d h ho => ?_⟩
    rw [h]
    cases ha : slotOf s .a with
    | none => rfl
    | some o => have := ho o ha; simp only [newestValid]; rw [if_neg (by omega)]

/-- **With one slot invalid, the other one is in force.** -/
theorem activePayload_of_none {s : Store} {t : Slot} (h : slotOf s t = none) :
    activePayload s = (slotOf s t.other).map DecodedSlot.payload := by
  unfold activePayload
  rcases loadActiveOf_cases s t with ⟨d, hd, -, -⟩ | ⟨d, hd, -, hl⟩ | hl
  · rw [h] at hd; cases hd
  · rw [hl, hd]; rfl
  · rw [hl, (newestValid_cases s t).1 h]; cases slotOf s t.other <;> rfl

/-- **With one slot newer, one of the two is in force**: the newer one unless the marker matches the
other. -/
theorem activePayload_of_newest {s : Store} {t : Slot} {d : DecodedSlot} (h : slotOf s t = some d)
    (hnew : ∀ o, slotOf s t.other = some o → o.generation < d.generation) :
    activePayload s = some d.payload ∨
      ∃ o, slotOf s t.other = some o ∧ markerOf s = some (t.other, o.generation) ∧
        activePayload s = some o.payload := by
  unfold activePayload
  rcases loadActiveOf_cases s t with ⟨d', hd, -, hl⟩ | ⟨o, ho, hm, hl⟩ | hl
  · rw [h] at hd; cases hd; left; rw [hl]; rfl
  · right; exact ⟨o, ho, hm, by rw [hl]; rfl⟩
  · left; rw [hl, (newestValid_cases s t).2 d h hnew]; rfl

/-- A load names the slot it read. -/
theorem slotOf_of_load {s : Store} {r : LoadResult} (h : loadActiveOf s = some r) :
    slotOf s r.slot = some ⟨r.slot, r.generation, r.payload⟩ := by
  have key : ∀ {t d}, slotOf s t = some d → slotOf s d.slot = some ⟨d.slot, d.generation, d.payload⟩ := by
    intro t d hd
    rw [decodeSlot_slot hd, hd, ← decodeSlot_slot hd]
  rcases loadActiveOf_cases s .a with ⟨d, hd, -, hl⟩ | ⟨d, hd, -, hl⟩ | hl
  · rw [hl] at h; obtain rfl := Option.some.inj h; exact key hd
  · rw [hl] at h; obtain rfl := Option.some.inj h; exact key hd
  · rw [hl] at h
    obtain ⟨d, hd, rfl⟩ := Option.map_eq_some_iff.mp h
    unfold newestValid at hd
    split at hd
    · exact key hd
    · next ha _ => cases hd; exact key ha
    · next ha hb =>
      split_ifs at hd
      · cases hd; exact key ha
      · cases hd; exact key hb

theorem slots_of_load_none {s : Store} (h : loadActiveOf s = none) (t : Slot) : slotOf s t = none := by
  have hn : newestValid (slotOf s .a) (slotOf s .b) = none := by
    rcases loadActiveOf_cases s t with ⟨d, -, -, hl⟩ | ⟨d, -, -, hl⟩ | hl
    · rw [hl] at h; cases h
    · rw [hl] at h; cases h
    · rw [hl] at h; simpa using h
  unfold newestValid at hn
  split at hn
  · next ha => cases t <;> simp_all
  · cases hn
  · split_ifs at hn

/-! ### The operations -/

section Rules
variable {A : Op → Event → Store → Prop} {C : Store → Prop} {s : Store}

theorem wp_readKey {key : Key} {Q : Option Bytes → Store → Prop} (hC : C s) (h : Q (s key) s) :
    wp device A C (readKey key) Q s := ⟨hC, fun _ _ => h⟩

theorem wp_eraseKey {key : Key} {Q : Bool → Store → Prop} (hC : C s)
    (h : Q true (Function.update s key none)) : wp device A C (eraseKey key) Q s :=
  ⟨hC, fun _ _ => h⟩

theorem wp_readSlot {slot : Slot} {Q : Option DecodedSlot → Store → Prop} (hC : C s)
    (h : Q (slotOf s slot) s) : wp device A C (readSlot slot) Q s :=
  wp_bind'.mpr (wp_readKey hC h)

theorem wp_loadActive {Q : Option LoadResult → Store → Prop} (hC : C s) (h : Q (loadActiveOf s) s) :
    wp device A C loadActive Q s :=
  wp_bind'.mpr (wp_readSlot hC (wp_bind'.mpr (wp_readSlot hC (wp_bind'.mpr (wp_readKey hC h)))))

/-- A verified write leaves the value, or a faulty one with a failure reported. -/
theorem wp_writeVerified {key : Key} {v : Bytes} {Q : Bool → Store → Prop} (hC : C s)
    (hdone : C (Function.update s key (some v)) ∧ Q true (Function.update s key (some v)))
    (hfault : ∀ reported left, A (.write key v) (.faulty reported left) s →
      C (Function.update s key left) ∧ Q false (Function.update s key left)) :
    wp device A C (writeVerified key v) Q s := by
  refine wp_bind'.mpr ⟨hC, fun e he => ?_⟩
  cases e with
  | done =>
    refine wp_bind'.mpr (wp_readKey hdone.1 ?_)
    simpa [device] using hdone.2
  | faulty reported left =>
    obtain ⟨h1, h2⟩ := hfault reported left he
    cases reported with
    | false => exact h2
    | true =>
      refine wp_bind'.mpr (wp_readKey h1 ?_)
      by_cases hv : left = some v
      · subst hv; simpa [device] using hdone.2
      · have hne : (left == some v) = false := by simpa using hv
        simpa [device, hne] using h2

theorem wp_discard {key : Key} {Q : Option CommitResult → Store → Prop} (hC : C s)
    (h : Q none (Function.update s key none)) : wp device A C (discard key) Q s :=
  wp_bind'.mpr (wp_eraseKey hC h)

end Rules

/-! ### The theorem -/

/-- Bytes that the decoder of the key refuses. -/
def Rejects : Key → Option Bytes → Prop
  | _, none => False
  | .active, some bytes => decodeMarker bytes = none
  | _, some bytes => decodeRecord bytes = none

instance : ∀ key left, Decidable (Rejects key left)
  | _, none => inferInstanceAs (Decidable False)
  | .active, some bytes => inferInstanceAs (Decidable (decodeMarker bytes = none))
  | .slotA, some bytes => inferInstanceAs (Decidable (decodeRecord bytes = none))
  | .slotB, some bytes => inferInstanceAs (Decidable (decodeRecord bytes = none))

/-- **The faults**: a write that goes wrong leaves the old value, the new one or bytes its decoder
refuses, and reports what it likes. -/
def FaultyWrite : Op → Event → Store → Prop
  | .write key v, .faulty _ left, s =>
    left = s key ∨ left = some v ∨ Rejects key left
  | _, _, _ => True

instance : ∀ o e s, Decidable (FaultyWrite o e s)
  | .write key v, .faulty _ left, s =>
    inferInstanceAs (Decidable (left = s key ∨ left = some v ∨ Rejects key left))
  | .write _ _, .done, _ => .isTrue trivial
  | .read _, _, _ => .isTrue trivial
  | .erase _, _, _ => .isTrue trivial
  | .present _, _, _ => .isTrue trivial

theorem faultyWrite_done (o : Op) (s : Store) : FaultyWrite o .done s := by cases o <;> trivial

theorem decodeSlot_rejects {t : Slot} {left : Option Bytes} (h : Rejects (slotKey t) left) :
    decodeSlot t left = none := by
  cases left with
  | none => rfl
  | some bytes => cases t <;> simp_all [Rejects, slotKey, decodeSlot]

/-- What a commit of `q` from `s` may leave at any moment, in terms of the slot it writes and the slot
in force, which it leaves alone: nothing done, the record written with a new generation, or the
record gone. -/
inductive CommitState (s : Store) (q : Bytes) (s' : Store) : Prop
  | untouched (h : s' = s)
  | written (generation : ℕ) (hnew : ∀ t d, slotOf s t = some d → d.generation < generation)
      (hslot : slotOf s' (commitTarget (loadActiveOf s)) =
        some ⟨commitTarget (loadActiveOf s), generation, q⟩)
      (hother : slotOf s' (commitTarget (loadActiveOf s)).other =
        slotOf s (commitTarget (loadActiveOf s)).other)
  | discarded (hslot : slotOf s' (commitTarget (loadActiveOf s)) = none)
      (hother : slotOf s' (commitTarget (loadActiveOf s)).other =
        slotOf s (commitTarget (loadActiveOf s)).other)

/-- What a commit that has ended leaves. -/
def CommitEnd (s : Store) (q : Bytes) : Option CommitResult → Store → Prop
  | some c, s' => loadActiveOf s' = some ⟨false, c.slot, c.generation, q⟩ ∧ CommitState s q s'
  | none, s' => s' = s ∨ (slotOf s' (commitTarget (loadActiveOf s)) = none ∧
      slotOf s' (commitTarget (loadActiveOf s)).other = slotOf s (commitTarget (loadActiveOf s)).other)

/-- A matching marker puts its slot in force. -/
theorem loadActiveOf_marked {s : Store} {t : Slot} {d : DecodedSlot} (h : slotOf s t = some d)
    (hm : markerOf s = some (t, d.generation)) :
    loadActiveOf s = some ⟨false, d.slot, d.generation, d.payload⟩ := by
  unfold loadActiveOf selectActive
  rw [hm]
  cases t <;> simp [markedSlot, h, Option.filter]

/-- The generation a commit gives is above those of both slots. -/
theorem generation_new (s : Store) : ∀ t d, slotOf s t = some d →
    d.generation < max (generationOf (slotOf s .a)) (generationOf (slotOf s .b)) + 1 := by
  intro t d hd
  have : d.generation = generationOf (slotOf s t) := by rw [hd]; rfl
  cases t <;> omega

theorem generationOf_lt (s : Store) (t : Slot) : generationOf (slotOf s t) < 2 ^ 64 := by
  cases hd : slotOf s t with
  | none => simp [generationOf]
  | some d => exact (slotOf_generation hd).2

/-- The store once the slot and its marker are written. -/
def committed (s : Store) (target : Slot) (generation : ℕ) (payload : Bytes) : Store :=
  Function.update (Function.update s (slotKey target) (some (encodeRecord generation payload))) .active
    (some (encodeMarker target generation))

theorem slotOf_committed {s : Store} {target : Slot} {generation : ℕ} {payload : Bytes} (h0 : generation ≠ 0)
    (h64 : generation < 2 ^ 64) (hlength : payload.length ≤ maximumPayloadSize) :
    slotOf (committed s target generation payload) target = some ⟨target, generation, payload⟩ := by
  rw [committed, slotOf_update_active, slotOf_update_same]
  simp [decodeSlot, decodeRecord_encodeRecord h0 h64 hlength]

theorem loadActiveOf_committed {s : Store} {target : Slot} {generation : ℕ} {payload : Bytes} (h0 : generation ≠ 0)
    (h64 : generation < 2 ^ 64) (hlength : payload.length ≤ maximumPayloadSize) :
    loadActiveOf (committed s target generation payload) = some ⟨false, target, generation, payload⟩ :=
  loadActiveOf_marked (slotOf_committed h0 h64 hlength)
    (by simp [markerOf, committed, decodeMarker_encodeMarker h0 h64])

/-- **The moments of a commit**, under faulty writes and loss of power, and its end. -/
theorem commit_wp (s : Store) (q : Bytes) :
    wp device FaultyWrite (CommitState s q) (commit q) (CommitEnd s q) s := by
  have hs : CommitState s q s := .untouched rfl
  unfold commit
  split_ifs with hq
  · exact Or.inl rfl
  simp only [not_or, Nat.not_lt] at hq
  refine wp_bind'.mpr (wp_loadActive hs (wp_bind'.mpr (wp_readSlot hs (wp_bind'.mpr
    (wp_readSlot hs ?_)))))
  simp only
  split_ifs with hmax
  · exact Or.inl rfl
  set target := commitTarget (loadActiveOf s) with htarget
  set generation := max (generationOf (slotOf s .a)) (generationOf (slotOf s .b)) + 1 with hgeneration
  have hnew := generation_new s
  rw [← hgeneration] at hnew
  have hgen : generation < 2 ^ 64 := by
    have ha := generationOf_lt s .a
    have hb := generationOf_lt s .b
    omega
  have hgen0 : generation ≠ 0 := by omega
  have hdecode := decodeRecord_encodeRecord hgen0 hgen hq.2
  have hwritten : slotOf (Function.update s (slotKey target) (some (encodeRecord generation q))) target =
      some ⟨target, generation, q⟩ := by
    rw [slotOf_update_same]; simp [decodeSlot, hdecode]
  have hC1 : CommitState s q (Function.update s (slotKey target) (some (encodeRecord generation q))) :=
    .written generation hnew hwritten (slotOf_update_other ..)
  -- the cleanup leaves the slot in force alone
  have hfail : ∀ s', slotOf s' target.other = slotOf s target.other →
      CommitEnd s q none (Function.update s' (slotKey target) none) := fun s' h =>
    Or.inr ⟨by rw [slotOf_update_same]; rfl, by rw [slotOf_update_other, h]⟩
  refine wp_bind'.mpr (wp_writeVerified hs ⟨hC1, ?_⟩ fun reported left hleft => ?_)
  · -- the slot is written and reads back
    simp only [Bool.not_true, Bool.false_eq_true, if_false]
    refine wp_bind'.mpr (wp_readKey hC1 ?_)
    rw [if_neg (by simp [hdecode])]
    set s1 := Function.update s (slotKey target) (some (encodeRecord generation q)) with hs1
    have hmarker : ∀ v, CommitState s q (Function.update s1 .active v) := fun v =>
      .written generation hnew (by rw [slotOf_update_active]; exact hwritten)
        (by rw [slotOf_update_active, slotOf_update_other])
    refine wp_bind'.mpr (wp_writeVerified hC1 ⟨hmarker _, ?_⟩ fun reported left hleft =>
      ⟨hmarker _, ?_⟩)
    · simp only [Bool.not_true, Bool.false_eq_true, if_false]
      have hload : loadActiveOf (Function.update s1 .active (some (encodeMarker target generation))) =
          some ⟨false, target, generation, q⟩ := loadActiveOf_committed hgen0 hgen hq.2
      refine wp_bind'.mpr (wp_loadActive (hmarker _) ?_)
      rw [hload]
      simpa [CommitEnd] using ⟨hload, hmarker _⟩
    · exact wp_discard (hmarker _) (hfail _ (by rw [slotOf_update_active, slotOf_update_other]))
  · -- the write of the slot went wrong
    have hC2 : CommitState s q (Function.update s (slotKey target) left) := by
      rcases hleft with rfl | rfl | hrej
      · exact .untouched (Function.update_eq_self ..)
      · exact hC1
      · exact .discarded (by rw [slotOf_update_same]; exact decodeSlot_rejects hrej)
          (slotOf_update_other ..)
    exact ⟨hC2, wp_discard hC2 (hfail _ (slotOf_update_other ..))⟩

/-! ### A commit that nothing disturbs -/

theorem steady_readSlot (slot : Slot) (s : Store) : steady device .done (readSlot slot) s = (slotOf s slot, s) := rfl

theorem steady_loadActive (s : Store) : steady device .done loadActive s = (loadActiveOf s, s) := rfl

theorem steady_writeVerified (key : Key) (value : Bytes) (s : Store) :
    steady device .done (writeVerified key value) s = (true, Function.update s key (some value)) := by
  simp [writeVerified, writeKey, readKey, device]

/-- **A commit that nothing disturbs** writes the slot and its marker. -/
theorem steady_commit {s : Store} {q : Bytes} {generation : ℕ} (hq : q ≠ [])
    (hlength : q.length ≤ maximumPayloadSize)
    (hgeneration : max (generationOf (slotOf s .a)) (generationOf (slotOf s .b)) + 1 = generation)
    (h64 : generation < 2 ^ 64) :
    steady device .done (commit q) s = (some ⟨commitTarget (loadActiveOf s), generation⟩,
      committed s (commitTarget (loadActiveOf s)) generation q) := by
  have h0 : generation ≠ 0 := by omega
  unfold commit
  rw [if_neg (by simp [hq, Nat.not_lt.mpr hlength]), steady_bind, steady_loadActive, steady_bind, steady_readSlot,
    steady_bind, steady_readSlot]
  dsimp only
  rw [hgeneration, if_neg (by omega)]
  set target := commitTarget (loadActiveOf s)
  have hloaded : loadActiveOf (committed s target generation q) = some ⟨false, target, generation, q⟩ :=
    loadActiveOf_committed h0 h64 hlength
  have hread : steady device .done (readKey (slotKey target))
      (Function.update s (slotKey target) (some (encodeRecord generation q))) =
        (some (encodeRecord generation q), Function.update s (slotKey target) (some (encodeRecord generation q))) := by
    simp [readKey, device]
  rw [steady_bind, steady_writeVerified]
  dsimp only
  rw [if_neg (by decide), steady_bind, hread]
  dsimp only
  rw [Option.bind_some, decodeRecord_encodeRecord h0 h64 hlength, if_neg (by simp), commitMarker, steady_bind,
    steady_writeVerified]
  dsimp only
  rw [if_neg (by decide), steady_bind, steady_loadActive]
  dsimp only
  rw [← committed, hloaded, if_neg (by simp), steady_pure]

/-! ### The payload in force -/

/-- The slot a commit leaves alone is the one in force. -/
theorem activePayload_eq (s : Store) :
    activePayload s = (slotOf s (commitTarget (loadActiveOf s)).other).map DecodedSlot.payload := by
  cases h : loadActiveOf s with
  | none => simp [activePayload, h, commitTarget, slots_of_load_none h]
  | some r =>
    have := slotOf_of_load h
    simp [activePayload, h, commitTarget, other_other, this]

/-- Without the slot it writes, what was in force is in force. -/
theorem activePayload_discarded {s s' : Store} (h : slotOf s' (commitTarget (loadActiveOf s)) = none)
    (hother : slotOf s' (commitTarget (loadActiveOf s)).other =
      slotOf s (commitTarget (loadActiveOf s)).other) :
    activePayload s' = activePayload s := by
  rw [activePayload_of_none h, hother, ← activePayload_eq]

/-- At every moment of a commit the old or the new payload is in force. -/
theorem activePayload_commitState {s s' : Store} {q : Bytes} (h : CommitState s q s') :
    activePayload s' = activePayload s ∨ activePayload s' = some q := by
  cases h with
  | untouched h => exact Or.inl (by rw [h])
  | discarded hslot hother => exact Or.inl (activePayload_discarded hslot hother)
  | written generation hnew hslot hother =>
    rcases activePayload_of_newest hslot (fun o ho => hnew _ o (by rw [← hother]; exact ho)) with
      hq | ⟨o, ho, -, hp⟩
    · exact Or.inr hq
    · left
      rw [hp, activePayload_eq s, ← hother, ho]
      rfl

theorem activePayload_commitEnd {s s' : Store} {q : Bytes} (h : CommitEnd s q none s') :
    activePayload s' = activePayload s := by
  rcases h with rfl | ⟨hslot, hother⟩
  · rfl
  · exact activePayload_discarded hslot hother

/-- **A commit is atomic under power loss and write failure.** -/
theorem commit_atomic (s : Store) (q : Bytes) (events : List Event)
    (hfaults : Along device FaultyWrite (commit q) events s) :
    (activePayload (run device (commit q) events s).1 = activePayload s ∨
      activePayload (run device (commit q) events s).1 = some q) ∧
    (∀ r left, (run device (commit q) events s).2 = some (some r, left) →
      activePayload (run device (commit q) events s).1 = some q) ∧
    (∀ left, (run device (commit q) events s).2 = some (none, left) →
      activePayload (run device (commit q) events s).1 = activePayload s) := by
  have h := wp_run (commit_wp s q) hfaults
  generalize run device (commit q) events s = out at h ⊢
  obtain ⟨s', result⟩ := out
  rcases result with _ | ⟨_ | r, left⟩
  · exact ⟨activePayload_commitState h, by simp, by simp⟩
  · have hold : activePayload s' = activePayload s := activePayload_commitEnd (q := q) h
    exact ⟨Or.inl hold, by simp, fun _ _ => hold⟩
  · have hq : activePayload s' = some q := by simp [activePayload, h.1]
    exact ⟨Or.inr hq, fun _ _ _ => hq, by simp⟩

/-- An empty store, the slot written, and the marker left torn although reported as written. -/
theorem commit_torn_marker :
    Along device FaultyWrite (commit [7])
      [.done, .done, .done, .done, .done, .done, .done, .done, .faulty true (some [0]), .done, .done]
      (fun _ => none) ∧
    activePayload (run device (commit [7])
      [.done, .done, .done, .done, .done, .done, .done, .done, .faulty true (some [0]), .done, .done]
      (fun _ => none)).1 = none := by
  have hfaults : Along device FaultyWrite (commit [7])
      [.done, .done, .done, .done, .done, .done, .done, .done, .faulty true (some [0]), .done, .done]
      (fun _ => none) := by decide +kernel
  exact ⟨hfaults, ((commit_atomic (fun _ => none) [7] _ hfaults).2.2 [] (by decide +kernel)).trans
    (by decide)⟩

end PowerMonitor.Config.CommitAtomic
