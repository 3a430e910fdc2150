import PowerMonitor.Config.CommitAtomic

/-! # Rolling back only to what was in force

The runs of a store: from an empty one, any sequence of commits and rollbacks, each cut short by a
loss of power or not, with writes that are done or not done but never torn. Along every run, the slot
a rollback would go back to (`previousOf`) was in force at an earlier moment (`Reach.previous_inForce`).

* `commit_previous`: a commit leaves as the previous slot what was in force, or what was the previous
  slot.
* `rollback_previous`: a rollback leaves no previous slot, unless it has changed nothing. -/

namespace PowerMonitor.Config.Rollback

open PowerMonitor.Lib.Binary PowerMonitor.Lib.Program
open PowerMonitor.Config.AtomicConfigStore PowerMonitor.Config.CommitAtomic

/-! ### The previous slot -/

/-- The slot in force, as a slot. -/
def inForce (s : Store) : Option DecodedSlot :=
  (loadActiveOf s).map fun r => ⟨r.slot, r.generation, r.payload⟩

/-- The slot a rollback goes back to: the valid one that is not in force, if it is older. -/
def previousOf (s : Store) : Option DecodedSlot :=
  (loadActiveOf s).bind fun current =>
    (slotOf s current.slot.other).filter fun d => d.generation < current.generation

/-- What `loadPrevious` yields on a content. -/
def loadPreviousOf (s : Store) (expectedCurrentGeneration : ℕ) : Option LoadResult :=
  if (inForce s).map DecodedSlot.generation = some expectedCurrentGeneration then
    (previousOf s).map fun d => ⟨false, d.slot, d.generation, d.payload⟩
  else none

theorem inForce_slotOf {s : Store} {d : DecodedSlot} (h : inForce s = some d) : slotOf s d.slot = some d := by
  obtain ⟨r, hr, rfl⟩ := Option.map_eq_some_iff.mp h
  exact slotOf_of_load hr

theorem previousOf_eq_some {s : Store} {d : DecodedSlot} (h : previousOf s = some d) :
    ∃ current, inForce s = some current ∧ slotOf s current.slot.other = some d ∧
      d.generation < current.generation := by
  obtain ⟨r, hr, hd⟩ := Option.bind_eq_some_iff.mp h
  obtain ⟨hslot, hlt⟩ := Option.filter_eq_some_iff.mp hd
  exact ⟨_, by rw [inForce, hr]; rfl, hslot, by simpa using hlt⟩

theorem previousOf_eq_none {s : Store} {current : DecodedSlot} (h : inForce s = some current)
    (hother : ∀ d, slotOf s current.slot.other = some d → current.generation ≤ d.generation) :
    previousOf s = none := by
  cases hp : previousOf s with
  | none => rfl
  | some d =>
    obtain ⟨c, hc, hslot, hlt⟩ := previousOf_eq_some hp
    rw [h] at hc
    cases hc
    have := hother d hslot
    omega

/-- The slot a commit leaves alone is the one in force. -/
theorem inForce_eq (s : Store) : inForce s = slotOf s (commitTarget (loadActiveOf s)).other := by
  cases h : loadActiveOf s with
  | none => simp [inForce, h, commitTarget, slots_of_load_none h]
  | some r => simp [inForce, h, commitTarget, other_other, slotOf_of_load h]

/-- A slot is one of the two. -/
theorem slot_eq_or (t x : Slot) : x = t ∨ x = t.other := by cases t <;> cases x <;> simp [Slot.other]

/-- At every moment of a commit, the previous slot is what was in force or what was previous. -/
theorem previousOf_commitState {s s' : Store} {q : Bytes} {d : DecodedSlot} (h : CommitState s q s')
    (hd : previousOf s' = some d) : inForce s = some d ∨ previousOf s = some d := by
  obtain ⟨current, hc, hslot', hlt⟩ := previousOf_eq_some hd
  have hcs := inForce_slotOf hc
  cases h with
  | untouched h => right; rw [← h]; exact hd
  | discarded hslot hother =>
    rcases slot_eq_or (commitTarget (loadActiveOf s)) current.slot with hx | hx
    · rw [hx, hslot] at hcs; cases hcs
    · rw [hx, other_other, hslot] at hslot'; cases hslot'
  | written generation hnew hslot hother =>
    rcases slot_eq_or (commitTarget (loadActiveOf s)) current.slot with hx | hx
    · left; rw [inForce_eq, ← hother, ← hx]; exact hslot'
    · -- the new record is not below what was in force
      rw [hx, other_other, hslot] at hslot'
      cases hslot'
      rw [hx, hother] at hcs
      have := hnew _ _ hcs
      simp only at hlt
      omega

/-! ### The operations -/

/-- A write is done or not done. -/
def AtomicWrite : Op → Event → Store → Prop
  | .write key v, .faulty _ left, s => left = s key ∨ left = some v
  | _, _, _ => True

instance : ∀ o e s, Decidable (AtomicWrite o e s)
  | .write key v, .faulty _ left, s => inferInstanceAs (Decidable (left = s key ∨ left = some v))
  | .write _ _, .done, _ => .isTrue trivial
  | .read _, _, _ => .isTrue trivial
  | .erase _, _, _ => .isTrue trivial
  | .present _, _, _ => .isTrue trivial

theorem FaultyWrite.of_atomicWrite {o : Op} {e : Event} {s : Store} (h : AtomicWrite o e s) :
    FaultyWrite o e s := by
  unfold AtomicWrite at h
  unfold FaultyWrite
  split
  · rcases h with h | h
    · exact Or.inl h
    · exact Or.inr (Or.inl h)
  · trivial

/-- **A commit** leaves as the previous slot what was in force, or what was the previous slot. -/
theorem commit_previous (s : Store) (q : Bytes) :
    wp device AtomicWrite (fun s' => ∀ d, previousOf s' = some d → inForce s = some d ∨ previousOf s = some d)
      (commit q) (fun _ s' => ∀ d, previousOf s' = some d → inForce s = some d ∨ previousOf s = some d)
      s := by
  refine wp_assume (fun o e s => FaultyWrite.of_atomicWrite) (wp_mono
    (fun s' h d => previousOf_commitState h) (fun r s' h d => ?_) (commit_wp s q))
  cases r with
  | some c => exact previousOf_commitState h.2
  | none =>
    rcases h with rfl | ⟨hslot, hother⟩
    · exact Or.inr
    · exact previousOf_commitState (q := q) (.discarded hslot hother)

theorem wp_loadPrevious {A : Op → Event → Store → Prop} {C : Store → Prop} {s : Store}
    {expected : ℕ} {Q : Option LoadResult → Store → Prop} (hC : C s)
    (h : Q (loadPreviousOf s expected) s) : wp device A C (loadPrevious expected) Q s := by
  refine wp_bind'.mpr (wp_loadActive hC ?_)
  unfold loadPreviousOf inForce previousOf at h
  cases hl : loadActiveOf s with
  | none => simpa [hl] using h
  | some current =>
    simp only [hl, Option.map_some, Option.some.injEq, Option.bind_some] at h
    simp only [ne_eq]
    split_ifs with hg
    · rw [if_pos hg] at h
      exact wp_bind'.mpr (wp_readSlot hC h)
    · rw [if_neg hg] at h; exact h

/-- The marker that names a valid slot puts it in force. -/
theorem inForce_marker {s : Store} {d : DecodedSlot} (h : slotOf s d.slot = some d) :
    loadActiveOf (Function.update s .active (some (encodeMarker d.slot d.generation))) =
      some ⟨false, d.slot, d.generation, d.payload⟩ := by
  obtain ⟨h0, h64⟩ := slotOf_generation h
  exact loadActiveOf_marked (by rw [slotOf_update_active]; exact h)
    (by simp [markerOf, decodeMarker_encodeMarker h0 h64])

theorem previousOf_slotOf {s : Store} {d : DecodedSlot} (h : previousOf s = some d) :
    slotOf s d.slot = some d := by
  obtain ⟨current, -, hslot, -⟩ := previousOf_eq_some h
  rw [decodeSlot_slot hslot, hslot]

/-- With the previous slot put in force, there is none. -/
theorem previousOf_rolledBack {s : Store} {d : DecodedSlot} (h : previousOf s = some d) :
    previousOf (Function.update s .active (some (encodeMarker d.slot d.generation))) = none := by
  obtain ⟨current, hc, hslot, hlt⟩ := previousOf_eq_some h
  have hload := inForce_marker (previousOf_slotOf h)
  refine previousOf_eq_none (by rw [inForce, hload]; rfl) fun o ho => ?_
  simp only [slotOf_update_active] at ho
  rw [decodeSlot_slot hslot, other_other, inForce_slotOf hc] at ho
  cases ho
  simp only
  omega

/-- What a rollback that has ended leaves: on success, the previous slot in force. -/
def RollbackEnd (s : Store) (expected : ℕ) : Option LoadResult → Store → Prop
  | some r, s' => loadPreviousOf s expected = some r ∧ loadActiveOf s' = some r ∧ previousOf s' = none
  | none, s' => s' = s ∨ previousOf s' = none

theorem loadPreviousOf_eq_some {s : Store} {expected : ℕ} {r : LoadResult}
    (h : loadPreviousOf s expected = some r) :
    ∃ d, previousOf s = some d ∧ r = ⟨false, d.slot, d.generation, d.payload⟩ := by
  unfold loadPreviousOf at h
  split_ifs at h
  obtain ⟨d, hd, rfl⟩ := Option.map_eq_some_iff.mp h
  exact ⟨d, hd, rfl⟩

/-- **A rollback** changes nothing, or leaves no previous slot. -/
theorem rollback_wp (s : Store) (expected : ℕ) :
    wp device AtomicWrite (fun s' => s' = s ∨ previousOf s' = none) (rollbackToPrevious expected)
      (RollbackEnd s expected) s := by
  have hs : s = s ∨ previousOf s = none := Or.inl rfl
  refine wp_bind'.mpr (wp_loadPrevious hs ?_)
  cases hp : loadPreviousOf s expected with
  | none => exact Or.inl rfl
  | some previous =>
    obtain ⟨d, hd, rfl⟩ := loadPreviousOf_eq_some hp
    have hback := previousOf_rolledBack hd
    have hload := inForce_marker (previousOf_slotOf hd)
    refine wp_bind'.mpr (wp_writeVerified hs ⟨Or.inr hback, ?_⟩ fun reported left hleft => ?_)
    · simp only [Bool.not_true, Bool.false_eq_true, if_false]
      refine wp_bind'.mpr (wp_loadActive (Or.inr hback) ?_)
      rw [hload]
      simpa [Option.filter, RollbackEnd] using ⟨hp, hload, hback⟩
    · have hleft' : Function.update s .active left = s ∨
          previousOf (Function.update s .active left) = none := by
        rcases hleft with rfl | rfl
        · exact Or.inl (Function.update_eq_self ..)
        · exact Or.inr hback
      exact ⟨hleft', hleft'⟩

/-! ### Runs -/

inductive Call
  | commit (payload : Bytes)
  | rollbackToPrevious (expectedCurrentGeneration : ℕ)

/-- The store after a call cut short, or not, by the end of the events. -/
def Call.exec (events : List Event) (s : Store) : Call → Store
  | .commit payload => (run device (AtomicConfigStore.commit payload) events s).1
  | .rollbackToPrevious expected =>
    (run device (AtomicConfigStore.rollbackToPrevious expected) events s).1

def Call.Atomic (events : List Event) (s : Store) : Call → Prop
  | .commit payload => Along device AtomicWrite (AtomicConfigStore.commit payload) events s
  | .rollbackToPrevious expected =>
    Along device AtomicWrite (AtomicConfigStore.rollbackToPrevious expected) events s

instance (events : List Event) (s : Store) : ∀ c : Call, Decidable (c.Atomic events s)
  | .commit _ => decidableAlong ..
  | .rollbackToPrevious _ => decidableAlong ..

/-- The stores a run reaches, with the stores it has been in before, from an empty one. -/
inductive Reach : List Store → Store → Prop
  | start : Reach [] (fun _ => none)
  | step {past : List Store} {s : Store} (h : Reach past s) (c : Call) (events : List Event)
      (hatomic : c.Atomic events s) : Reach (s :: past) (c.exec events s)

/-- The step: the previous slot was in force, or was previous. -/
theorem exec_previous {s : Store} {c : Call} {events : List Event} (hatomic : c.Atomic events s)
    {d : DecodedSlot} (h : previousOf (c.exec events s) = some d) :
    inForce s = some d ∨ previousOf s = some d := by
  cases c with
  | commit payload =>
    have hrun := wp_run (commit_previous s payload) hatomic
    simp only [Call.exec] at h
    generalize run device (AtomicConfigStore.commit payload) events s = out at hrun h
    obtain ⟨s', _ | ⟨r, left⟩⟩ := out <;> exact hrun d h
  | rollbackToPrevious expected =>
    have hrun := wp_run (rollback_wp s expected) hatomic
    simp only [Call.exec] at h
    generalize run device (AtomicConfigStore.rollbackToPrevious expected) events s = out at hrun h
    have hend : out.1 = s ∨ previousOf out.1 = none := by
      obtain ⟨s', _ | ⟨_ | r, left⟩⟩ := out
      · exact hrun
      · exact hrun
      · exact Or.inr hrun.2.2
    rcases hend with hs | hn
    · rw [hs] at h; exact Or.inr h
    · rw [hn] at h; cases h

/-- **The previous slot was in force earlier in the run.** -/
theorem Reach.previous_inForce {past : List Store} {s : Store} (h : Reach past s) :
    ∀ {d}, previousOf s = some d → ∃ s' ∈ past, inForce s' = some d := by
  induction h with
  | start =>
    intro d hd
    obtain ⟨current, hc, -⟩ := previousOf_eq_some hd
    cases hc
  | step h c events hatomic ih =>
    intro d hd
    rcases exec_previous hatomic hd with h' | h'
    · exact ⟨_, List.mem_cons_self, h'⟩
    · obtain ⟨s', hs', hd'⟩ := ih h'
      exact ⟨s', List.mem_cons_of_mem _ hs', hd'⟩

/-- A completed `loadPrevious` yields what `loadPreviousOf` says. -/
theorem run_loadPrevious {s : Store} {expected : ℕ} {events : List Event} {r : Option LoadResult}
    {left : List Event} (h : (run device (loadPrevious expected) events s).2 = some (r, left)) :
    loadPreviousOf s expected = r := by
  have hwp : wp device (fun _ _ _ => True) (fun _ => True) (loadPrevious expected)
      (fun r _ => loadPreviousOf s expected = r) s := wp_loadPrevious trivial rfl
  exact (wp_run hwp (along_of_forall _ _ fun _ _ _ _ => trivial)).of_result h

/-- With no previous slot, a rollback fails. -/
theorem rollback_fails {s : Store} (hn : previousOf s = none) {expected : ℕ} {events left : List Event}
    {result : Option LoadResult}
    (h : (run device (rollbackToPrevious expected) events s).2 = some (result, left)) :
    result = none := by
  have hnone : loadPreviousOf s expected = none := by simp [loadPreviousOf, hn]
  have hwp : wp device (fun _ _ _ => True) (fun _ => True) (rollbackToPrevious expected)
      (fun result _ => result = none) s := by
    refine wp_bind'.mpr (wp_loadPrevious trivial ?_)
    rw [hnone]
    exact rfl
  exact (wp_run hwp (along_of_forall _ _ fun _ _ _ _ => trivial)).of_result h

/-- **A rollback restores what was in force.** In every store a run reaches, what `loadPrevious` yields
was in force earlier in the run and has a lower generation than what is in force now; a rollback that
succeeds puts exactly that in force; and the rollback after it fails. -/
theorem rollback_restores {past : List Store} {s : Store} (h : Reach past s) (expected : ℕ)
    (events left : List Event) (r : LoadResult)
    (hr : (run device (loadPrevious expected) events s).2 = some (some r, left)) :
    (∃ s' ∈ past, inForce s' = some ⟨r.slot, r.generation, r.payload⟩) ∧
    (∃ current, inForce s = some current ∧ r.generation < current.generation) ∧
    ∀ events result left,
      Along device AtomicWrite (rollbackToPrevious expected) events s →
      (run device (rollbackToPrevious expected) events s).2 = some (some result, left) →
      result = r ∧ loadActiveOf (run device (rollbackToPrevious expected) events s).1 = some r ∧
      ∀ expected' events' result' left',
        (run device (rollbackToPrevious expected') events'
          (run device (rollbackToPrevious expected) events s).1).2 = some (result', left') →
        result' = none := by
  have hr := run_loadPrevious hr
  obtain ⟨d, hd, rfl⟩ := loadPreviousOf_eq_some hr
  obtain ⟨current, hc, -, hlt⟩ := previousOf_eq_some hd
  refine ⟨h.previous_inForce hd, ⟨current, hc, hlt⟩, fun events result left hA hrun => ?_⟩
  obtain ⟨hp, hl, hn⟩ := (wp_run (rollback_wp s expected) hA).of_result hrun
  rw [hr] at hp
  obtain rfl := Option.some.inj hp
  exact ⟨rfl, hl, fun _ _ _ _ hrun' => rollback_fails hn hrun'⟩

/-- The events of an undisturbed call. -/
def undisturbed : List Event := List.replicate 16 .done

/-- Two commits to an empty store. -/
def afterTwo : Store :=
  (Call.commit [2]).exec undisturbed ((Call.commit [1]).exec undisturbed fun _ => none)

/-- The first payload is in force again after the rollback of the second. -/
theorem rollback_restores_first :
    loadActiveOf ((Call.rollbackToPrevious 2).exec undisturbed afterTwo) = some ⟨false, .a, 1, [1]⟩ := by
  have hreach : Reach _ afterTwo :=
    (Reach.start.step (.commit [1]) undisturbed (by decide +kernel)).step (.commit [2]) undisturbed
      (by decide +kernel)
  exact ((rollback_restores hreach 2 undisturbed (List.replicate 12 .done) ⟨false, .a, 1, [1]⟩
    (by decide +kernel)).2.2 undisturbed ⟨false, .a, 1, [1]⟩ (List.replicate 7 .done)
    (by decide +kernel) (by decide +kernel)).2.1

/-- A first commit cut short before its marker. -/
def afterCut : Store := (Call.commit [1]).exec (List.replicate 7 .done) fun _ => none

/-- A second commit after it. -/
def afterCutCommit : Store := (Call.commit [2]).exec undisturbed afterCut

/-- The slot whose marker was never written is in force by the marker that a rollback writes. -/
theorem rollback_promotes_unmarked :
    (∃ past, Reach past afterCutCommit) ∧
    ((run device (commit [1]) (List.replicate 7 .done) fun _ => none).2 = none ∧
      slotOf afterCut .a = some ⟨.a, 1, [1]⟩ ∧ afterCut .active = none) ∧
    (slotOf afterCutCommit .a = some ⟨.a, 1, [1]⟩ ∧ markerOf afterCutCommit = some (.b, 2)) ∧
    (markerOf ((Call.rollbackToPrevious 2).exec undisturbed afterCutCommit) = some (.a, 1) ∧
      loadActiveOf ((Call.rollbackToPrevious 2).exec undisturbed afterCutCommit) =
        some ⟨false, .a, 1, [1]⟩) := by
  have hreach : Reach _ afterCutCommit :=
    (Reach.start.step (.commit [1]) (List.replicate 7 .done) (by decide +kernel)).step (.commit [2])
      undisturbed (by decide +kernel)
  exact ⟨⟨_, hreach⟩, by decide +kernel⟩

end PowerMonitor.Config.Rollback
