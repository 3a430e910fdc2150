import PowerMonitor.Config.Provisioning

/-! # Provisioning is all or nothing

Wherever the power is lost in a provisioning and in any number of recoveries after it, a recovery that ends leaves the
configuration and the three credentials all as they were or all as they were asked for, and no journal; and every
recovery that ends reports success (`provisioning_all_or_nothing`).

* `Journaled`: while the journal is there, the configuration in force is the old one, or a newer one whose previous
  slot is the old one. Recovery needs nothing else, since it restores the credentials from the journal.
* `wp_recover`: a recovery keeps that at every moment and ends in the old state. -/

namespace PowerMonitor.Config.ProvisioningAtomic

open PowerMonitor.Lib.Binary PowerMonitor.Lib.Program PowerMonitor.Lib.Component
open PowerMonitor.Config.AtomicConfigStore (Store Slot DecodedSlot LoadResult CommitResult encodeMarker commitTarget)
open PowerMonitor.Config.CommitAtomic PowerMonitor.Config.Rollback
open PowerMonitor.Config.ProvisioningTransaction PowerMonitor.Config.Provisioning
open PowerMonitor.Security.Crypto (constantTimeEqual)

/-! ### The configuration in force -/

/-- Only the power is lost. -/
def Done : AtomicConfigStore.Op → AtomicConfigStore.Event → Store → Prop := fun _ e _ => e = .done

/-- The configuration is the old one, or a newer one that can be rolled back to it. -/
def Reversible (old : DecodedSlot) (config : Store) : Prop :=
  inForce config = some old ∨
    ∃ new, inForce config = some new ∧ old.generation < new.generation ∧ previousOf config = some old

theorem load_of_inForce {config : Store} {d : DecodedSlot} (h : inForce config = some d) :
    ∃ fallback, loadActiveOf config = some ⟨fallback, d.slot, d.generation, d.payload⟩ := by
  obtain ⟨r, hr, rfl⟩ := Option.map_eq_some_iff.mp h
  exact ⟨r.recoveredFallback, hr⟩

/-- With a slot gone, the other one is in force. -/
theorem inForce_of_none {config : Store} {t : Slot} (h : slotOf config t = none) :
    inForce config = slotOf config t.other := by
  unfold inForce
  rcases loadActiveOf_cases config t with ⟨d, hd, -, -⟩ | ⟨d, hd, -, hl⟩ | hl
  · rw [h] at hd
    cases hd
  · rw [hl, hd]
    rfl
  · rw [hl, (newestValid_cases config t).1 h]
    cases slotOf config t.other <;> rfl

/-- **At every moment of a commit the configuration can be rolled back.** -/
theorem reversible_commitState {config config' : Store} {payload : Bytes} {old : DecodedSlot}
    (hold : inForce config = some old) (h : CommitState config payload config') : Reversible old config' := by
  have hother := inForce_eq config
  rw [hold] at hother
  cases h with
  | untouched h => exact Or.inl (h ▸ hold)
  | discarded hslot hkept => exact Or.inl (by rw [inForce_of_none hslot, hkept, ← hother])
  | written generation hnew hslot hkept =>
    rw [← hother] at hkept
    have hlt : old.generation < generation := hnew _ old hother.symm
    have hnewest : ∀ o, slotOf config' (commitTarget (loadActiveOf config)).other = some o → o.generation < generation := by
      intro o ho
      rw [hkept] at ho
      cases ho
      exact hlt
    have hcases := loadActiveOf_cases config' (commitTarget (loadActiveOf config))
    rcases hcases with ⟨d, hd, -, hl⟩ | ⟨d, hd, -, hl⟩ | hl
    · right
      rw [hslot] at hd
      cases hd
      refine ⟨_, by rw [inForce, hl]; rfl, hlt, ?_⟩
      rw [previousOf, hl, Option.bind_some, hkept]
      exact Option.filter_eq_some_iff.mpr ⟨rfl, by simpa using hlt⟩
    · left
      rw [hkept] at hd
      cases hd
      rw [inForce, hl]
      rfl
    · right
      rw [(newestValid_cases config' _).2 _ hslot hnewest] at hl
      refine ⟨_, by rw [inForce, hl]; rfl, hlt, ?_⟩
      rw [previousOf, hl, Option.map_some, Option.bind_some, hkept]
      exact Option.filter_eq_some_iff.mpr ⟨rfl, by simpa using hlt⟩

/-- **A rollback succeeds** where there is a previous slot. -/
theorem rollback_done {config : Store} {current old : DecodedSlot} (hcurrent : inForce config = some current)
    (hprevious : previousOf config = some old) :
    wp AtomicConfigStore.device Done (fun config' => config' = config ∨ inForce config' = some old)
      (AtomicConfigStore.rollbackToPrevious current.generation)
      (fun r config' => r = some ⟨false, old.slot, old.generation, old.payload⟩ ∧ inForce config' = some old) config := by
  have hload : loadPreviousOf config current.generation = some ⟨false, old.slot, old.generation, old.payload⟩ := by
    rw [loadPreviousOf, hcurrent, Option.map_some, if_pos rfl, hprevious]
    rfl
  have hmarked := inForce_marker (previousOf_slotOf hprevious)
  have hback : inForce (Function.update config .active (some (encodeMarker old.slot old.generation))) = some old := by
    rw [inForce, hmarked]
    rfl
  unfold AtomicConfigStore.rollbackToPrevious
  refine wp_bind'.mpr (wp_loadPrevious (Or.inl rfl) ?_)
  rw [hload]
  refine wp_bind'.mpr (wp_writeVerified (Or.inl rfl) ⟨Or.inr hback, ?_⟩ fun reported left hfault => ?_)
  · simp only [Bool.not_true, Bool.false_eq_true, if_false]
    refine wp_bind'.mpr (wp_loadActive (Or.inr hback) ?_)
    rw [hmarked]
    simpa [Option.filter] using hback
  · cases hfault

/-! ### The operations -/

/-- Any event: there is only one. -/
def Any : Op → Event → Nvs → Prop := fun _ _ _ => True

/-- The value of a key is replaced. -/
def put (s : Nvs) (key : BytesKey) (value : Option Bytes) : Nvs :=
  { s with bytes := Function.update s.bytes key value }

@[simp] theorem put_config (s : Nvs) (key : BytesKey) (value : Option Bytes) : (put s key value).config = s.config := rfl

@[simp] theorem put_bytes_same (s : Nvs) (key : BytesKey) (value : Option Bytes) : (put s key value).bytes key = value :=
  Function.update_self ..

theorem put_bytes_other {key key' : BytesKey} (h : key' ≠ key) (s : Nvs) (value : Option Bytes) :
    (put s key value).bytes key' = s.bytes key' :=
  Function.update_of_ne h ..

theorem put_eq_self {s : Nvs} {key : BytesKey} {value : Option Bytes} (h : s.bytes key = value) :
    put s key value = s := by
  rw [put, ← h, Function.update_eq_self]

section Rules
variable {C : Nvs → Prop} {s : Nvs} {key : BytesKey} {value : Bytes}

theorem wp_getBytes {Q : Option Bytes → Nvs → Prop} (hC : C s) (h : Q (s.bytes key) s) :
    wp device Any C (getBytes key) Q s := ⟨hC, fun _ _ => h⟩

theorem wp_putBytes {Q : Bool → Nvs → Prop} (hC : C s) (h : Q true (put s key (some value))) :
    wp device Any C (putBytes key value) Q s := ⟨hC, fun _ _ => h⟩

theorem wp_isKey {Q : Bool → Nvs → Prop} (hC : C s) (h : Q (s.bytes key).isSome s) :
    wp device Any C (isKey key) Q s := ⟨hC, fun _ _ => h⟩

theorem wp_remove {Q : Bool → Nvs → Prop} (hC : C s) (h : Q true (put s key none)) :
    wp device Any C (remove key) Q s := ⟨hC, fun _ _ => h⟩

theorem wp_read {Q : Option Bytes → Nvs → Prop} (hC : C s) (h : Q ((s.bytes key).filter (· ≠ [])) s) :
    wp device Any C (read key) Q s := wp_bind'.mpr (wp_getBytes hC h)

theorem wp_erase {Q : Bool → Nvs → Prop} (hC : C s) (h : Q true (put s key none)) :
    wp device Any C (erase key) Q s := by
  refine wp_bind'.mpr (wp_isKey hC ?_)
  cases hkey : s.bytes key with
  | none =>
    rw [put_eq_self hkey] at h
    exact h
  | some bytes => exact wp_remove hC h

theorem wp_writeBytesChecked {Q : Bool → Nvs → Prop} (hvalue : value ≠ []) (hC : C s) (hput : C (put s key (some value)))
    (h : Q true (put s key (some value))) : wp device Any C (writeBytesChecked key value) Q s := by
  unfold writeBytesChecked
  rw [if_neg hvalue]
  refine wp_bind'.mpr (wp_putBytes hC ?_)
  refine wp_bind'.mpr (wp_getBytes hput ?_)
  rw [put_bytes_same, wp_pure, decide_eq_true rfl]
  exact h

theorem wp_erasePreferenceChecked {Q : Bool → Nvs → Prop} (hC : C s) (hput : C (put s key none))
    (h : Q true (put s key none)) : wp device Any C (erasePreferenceChecked key) Q s := by
  refine wp_bind'.mpr (wp_isKey hC ?_)
  cases hkey : s.bytes key with
  | none =>
    rw [put_eq_self hkey] at h
    exact h
  | some bytes =>
    refine wp_bind'.mpr (wp_remove hC ?_)
    refine wp_bind'.mpr (wp_isKey hput ?_)
    rw [put_bytes_same]
    exact h

/-- The value a credential is restored to. -/
def restored (value : Bytes) : Option Bytes := if value = [] then none else some value

theorem wp_restoreCredential {Q : Bool → Nvs → Prop} (hC : C s) (hput : C (put s key (restored value)))
    (h : Q true (put s key (restored value))) : wp device Any C (restoreCredential key value) Q s := by
  unfold restoreCredential
  by_cases hvalue : value = []
  · rw [if_pos hvalue]
    rw [restored, if_pos hvalue] at hput h
    exact wp_erasePreferenceChecked hC hput h
  · rw [if_neg hvalue]
    rw [restored, if_neg hvalue] at hput h
    exact wp_writeBytesChecked hvalue hC hput h

theorem wp_clear {Q : Bool → Nvs → Prop} (hC : C s) (hput : C (put s .provisionTxn none))
    (h : Q true (put s .provisionTxn none)) : wp device Any C clearProvisioningTransaction Q s := by
  refine wp_bind'.mpr (wp_erase hC ?_)
  refine wp_bind'.mpr (wp_isKey hput ?_)
  rw [put_bytes_same]
  exact h

/-- A program of the configuration changes nothing else. -/
theorem wp_config {α : Type} {p : AtomicConfigStore.BlobProg α} {C' : Store → Prop} {Q' : α → Store → Prop}
    {Q : α → Nvs → Prop} (hp : wp AtomicConfigStore.device Done C' p Q' s.config)
    (hC : ∀ config, C' config → C { s with config := config })
    (hQ : ∀ a config, Q' a config → Q a { s with config := config }) :
    wp device Any C (component configPart p) Q s := by
  have hact : ∀ o e s', Any (configPart.op o) e s' → s'.bytes = s.bytes →
      (∃ e', Done o e' s'.config ∧ Acts configPart AtomicConfigStore.device device Nvs.config o e e' s') ∧
        (device.act (configPart.op o) e s').1.bytes = s.bytes :=
    fun o e s' _ hbytes => ⟨⟨.done, rfl, rfl, rfl⟩, hbytes⟩
  refine wp_mono (fun s' h => ?_) (fun a s' h => ?_) (wp_component hact rfl hp)
  · obtain ⟨hstore, hbytes⟩ := h
    have hs : s' = { s with config := s'.config } := by rw [← hbytes]
    exact hs ▸ hC s'.config hstore
  · obtain ⟨hstore, hbytes⟩ := h
    have hs : s' = { s with config := s'.config } := by rw [← hbytes]
    exact hs ▸ hQ a s'.config hstore

theorem wp_loadActive {Q : Option LoadResult → Nvs → Prop} (hC : C s) (h : Q (loadActiveOf s.config) s) :
    wp device Any C loadActive Q s := by
  have hload : wp AtomicConfigStore.device Done (· = s.config) AtomicConfigStore.loadActive
      (fun r config => r = loadActiveOf s.config ∧ config = s.config) s.config :=
    CommitAtomic.wp_loadActive rfl ⟨rfl, rfl⟩
  refine wp_config hload (fun config hconfig => hconfig ▸ hC) fun r config hr => ?_
  obtain ⟨rfl, rfl⟩ := hr
  exact h

theorem wp_loadPrevious {Q : Option LoadResult → Nvs → Prop} {generation : ℕ} (hC : C s)
    (h : Q (loadPreviousOf s.config generation) s) : wp device Any C (loadPrevious generation) Q s := by
  have hload : wp AtomicConfigStore.device Done (· = s.config) (AtomicConfigStore.loadPrevious generation)
      (fun r config => r = loadPreviousOf s.config generation ∧ config = s.config) s.config :=
    Rollback.wp_loadPrevious rfl ⟨rfl, rfl⟩
  refine wp_config hload (fun config hconfig => hconfig ▸ hC) fun r config hr => ?_
  obtain ⟨rfl, rfl⟩ := hr
  exact h

/-- **A configuration that can be rolled back is loaded**; if it does not parse, the load rolls it back. -/
theorem wp_loadPersistentConfig {γ : Type} {lib : ConfigLibrary γ} {old : DecodedSlot}
    {Q : Option (γ × Bytes × ℕ) → Nvs → Prop} (hparse : (lib.parsePersistentConfig old.payload).isSome)
    (hreversible : Reversible old s.config) (hC : ∀ config, Reversible old config → C { s with config := config })
    (hQ : ∀ value wifiPassword d config, inForce config = some d →
      lib.parsePersistentConfig d.payload = some (value, wifiPassword) →
      (config = s.config ∨ inForce config = some old) →
      Q (some (value, wifiPassword, d.generation)) { s with config := config }) :
    wp device Any C (loadPersistentConfig lib) Q s := by
  have hhere : C s := hC s.config hreversible
  obtain ⟨⟨oldValue, oldPassword⟩, hold⟩ := Option.isSome_iff_exists.mp hparse
  obtain ⟨current, hcurrent⟩ : ∃ current, inForce s.config = some current := by
    rcases hreversible with h | ⟨new, h, -⟩
    · exact ⟨_, h⟩
    · exact ⟨_, h⟩
  obtain ⟨fallback, hload⟩ := load_of_inForce hcurrent
  refine wp_bind'.mpr (wp_loadActive hhere ?_)
  rw [hload]
  simp only
  cases hnow : lib.parsePersistentConfig current.payload with
  | some pair => exact hQ pair.1 pair.2 current s.config hcurrent hnow (Or.inl rfl)
  | none =>
    -- the one in force is not the old one, so the old one is its previous slot
    have hprevious : previousOf s.config = some old := by
      rcases hreversible with h | ⟨new, h, -, hprevious⟩
      · rw [hcurrent] at h
        cases h
        rw [hnow] at hold
        cases hold
      · exact hprevious
    have hloadPrevious : loadPreviousOf s.config current.generation =
        some ⟨false, old.slot, old.generation, old.payload⟩ := by
      rw [loadPreviousOf, hcurrent, Option.map_some, if_pos rfl, hprevious]
      rfl
    simp only
    refine wp_bind'.mpr (wp_loadPrevious hhere ?_)
    rw [hloadPrevious]
    simp only [hold]
    refine wp_bind'.mpr (wp_config (rollback_done hcurrent hprevious) (fun config hconfig => ?_)
      fun r config hr => ?_)
    · rcases hconfig with rfl | hback
      · exact hhere
      · exact hC config (Or.inl hback)
    · obtain ⟨rfl, hback⟩ := hr
      simp only [ne_eq, not_true_eq_false, or_self, if_false]
      exact hQ oldValue oldPassword old config hback hold (Or.inr hback)

end Rules

theorem encode_ne_nil {journal : Journal} (hfits : Fits journal) : encode journal ≠ [] := by
  intro h
  have hdecode := decode_encode hfits
  rw [h] at hdecode
  cases hdecode

/-! ### Recovering -/

/-- The journal of a store. -/
def journalOf (s : Nvs) (generation : UInt64) : Journal where
  previousConfigGeneration := generation
  enrollmentToken := (s.bytes .enrollTok).getD []
  adminSalt := (s.bytes .adminSalt).getD []
  adminHash := (s.bytes .adminHash).getD []

/-- A store in which no provisioning is under way: its configuration loads, and the service knows its generation (a
zero says that it did not get the lock to read it). -/
structure Consistent {γ : Type} (lib : ConfigLibrary γ) (generation : UInt64) (s : Nvs) : Prop where
  journal : s.bytes .provisionTxn = none
  config : ∃ old, inForce s.config = some old ∧ (generation = 0 ∨ generation.toNat = old.generation) ∧
    (lib.parsePersistentConfig old.payload).isSome = true
  nonempty : ∀ key, s.bytes key ≠ some []

/-- The configuration in force and the other keys are those of `s₀`. -/
structure Unchanged (s₀ s : Nvs) : Prop where
  config : inForce s.config = inForce s₀.config
  bytes : s.bytes = s₀.bytes

/-- The journal of `s₀` is there, and the configuration can be rolled back. -/
structure Journaled (s₀ : Nvs) (generation : UInt64) (s : Nvs) : Prop where
  journal : s.bytes .provisionTxn = some (encode (journalOf s₀ generation))
  config : ∃ old, inForce s₀.config = some old ∧ Reversible old s.config

theorem restored_getD {s : Nvs} {key : BytesKey} (h : s.bytes key ≠ some []) :
    restored ((s.bytes key).getD []) = s.bytes key := by
  cases hkey : s.bytes key with
  | none => rfl
  | some value =>
    have hvalue : value ≠ [] := by
      rintro rfl
      exact h hkey
    rw [Option.getD_some, restored, if_neg hvalue]

theorem Journaled.put {s₀ s : Nvs} {generation : UInt64} (h : Journaled s₀ generation s) (key : BytesKey)
    (value : Option Bytes) (hkey : BytesKey.provisionTxn ≠ key) : Journaled s₀ generation (put s key value) :=
  ⟨(put_bytes_other hkey s value).trans h.journal, h.config⟩

section Recovery
variable {γ : Type} {lib : ConfigLibrary γ} {s₀ s : Nvs} {generation : UInt64} {C : Nvs → Prop} {old : DecodedSlot}

/-- The credentials restored and the journal removed, with the old configuration in force. -/
theorem wp_restoreCredentials (hnonempty : ∀ key, s₀.bytes key ≠ some []) (hempty : s₀.bytes .provisionTxn = none)
    (hold : inForce s₀.config = some old) (hs : Journaled s₀ generation s) (hback : inForce s.config = some old)
    (hjournaled : ∀ s, Journaled s₀ generation s → C s) (hunchanged : ∀ s, Unchanged s₀ s → C s) :
    wp device Any C
      (do
        let restored ← restoreCredentials (journalOf s₀ generation)
        if !restored then return false else clearProvisioningTransaction)
      (fun r s => r = true ∧ Unchanged s₀ s) s := by
  have htoken := hs.put .enrollTok (restored (journalOf s₀ generation).enrollmentToken) (by decide)
  have hsalt := htoken.put .adminSalt (restored (journalOf s₀ generation).adminSalt) (by decide)
  have hhash := hsalt.put .adminHash (restored (journalOf s₀ generation).adminHash) (by decide)
  have hend : Unchanged s₀ (put (put (put (put s .enrollTok (restored (journalOf s₀ generation).enrollmentToken))
      .adminSalt (restored (journalOf s₀ generation).adminSalt))
      .adminHash (restored (journalOf s₀ generation).adminHash)) .provisionTxn none) := by
    refine ⟨hback.trans hold.symm, funext fun key => ?_⟩
    cases key with
    | provisionTxn => rw [put_bytes_same, hempty]
    | enrollTok =>
      rw [put_bytes_other (by decide), put_bytes_other (by decide), put_bytes_other (by decide), put_bytes_same]
      exact restored_getD (hnonempty .enrollTok)
    | adminSalt =>
      rw [put_bytes_other (by decide), put_bytes_other (by decide), put_bytes_same]
      exact restored_getD (hnonempty .adminSalt)
    | adminHash =>
      rw [put_bytes_other (by decide), put_bytes_same]
      exact restored_getD (hnonempty .adminHash)
  refine wp_bind'.mpr (wp_bind'.mpr (wp_restoreCredential (hjournaled _ hs) (hjournaled _ htoken) ?_))
  simp only [Bool.not_true, Bool.false_eq_true, if_false]
  refine wp_bind'.mpr (wp_restoreCredential (hjournaled _ htoken) (hjournaled _ hsalt) ?_)
  simp only [Bool.not_true, Bool.false_eq_true, if_false]
  refine wp_restoreCredential (hjournaled _ hsalt) (hjournaled _ hhash) ?_
  simp only [Bool.not_true, Bool.false_eq_true, if_false]
  exact wp_clear (hjournaled _ hhash) (hunchanged _ hend) ⟨rfl, hend⟩

/-- **A recovery that finds the journal** ends in the old state. -/
theorem wp_recover_journaled (hconsistent : Consistent lib generation s₀) (hfits : Fits (journalOf s₀ generation))
    (hs : Journaled s₀ generation s) (hjournaled : ∀ s, Journaled s₀ generation s → C s)
    (hunchanged : ∀ s, Unchanged s₀ s → C s) :
    wp device Any C (recoverIncompleteProvisioning lib) (fun r s => r = true ∧ Unchanged s₀ s) s := by
  obtain ⟨old, hold, hgeneration, hparse⟩ := hconsistent.config
  obtain ⟨old', hold', hreversible⟩ := hs.config
  obtain rfl : old = old' := Option.some.inj (hold.symm.trans hold')
  have hknown : generation.toNat = old.generation := by
    rcases hgeneration with h | h
    · exact absurd h hfits.1
    · exact h
  have hnonempty := encode_ne_nil hfits
  unfold recoverIncompleteProvisioning
  refine wp_bind'.mpr (wp_isKey (hjournaled s hs) ?_)
  rw [hs.journal]
  simp only [Option.isSome_some, Bool.not_true, Bool.false_eq_true, if_false]
  refine wp_bind'.mpr (wp_read (hjournaled s hs) ?_)
  rw [hs.journal, Option.filter_some, if_pos (decide_eq_true hnonempty), Option.bind_some, decode_encode hfits]
  simp only
  refine wp_bind'.mpr (wp_loadPersistentConfig hparse hreversible
    (fun config hconfig => hjournaled _ ⟨hs.journal, old, hold, hconfig⟩) fun value wifiPassword d config hd hvalue hfrom => ?_)
  simp only
  have hrest : ∀ config', inForce config' = some old → wp device Any C
      (do
        let restored ← restoreCredentials (journalOf s₀ generation)
        if !restored then return false else clearProvisioningTransaction)
      (fun r s => r = true ∧ Unchanged s₀ s) { s with config := config' } := fun config' hback =>
    wp_restoreCredentials hconsistent.nonempty hconsistent.journal hold ⟨hs.journal, old, hold, Or.inl hback⟩ hback
      hjournaled hunchanged
  have hprevious : (journalOf s₀ generation).previousConfigGeneration = generation := rfl
  refine wp_bind'.mpr ?_
  unfold rollbackConfig
  rw [hprevious]
  by_cases hback : inForce config = some old
  · -- the old configuration is in force
    obtain rfl : d = old := Option.some.inj (hd.symm.trans hback)
    have haction : recoveryAction generation d.generation = .restoreCredentials := by
      rw [recoveryAction, if_neg (by rintro (h | h); exacts [hfits.1 h, by omega]), if_pos hknown.symm]
    rw [haction]
    exact hrest config hback
  · -- a newer one is, and it can be rolled back
    obtain rfl : config = s.config := hfrom.resolve_right hback
    obtain ⟨new, hnew, hlt, hrollback⟩ := hreversible.resolve_left hback
    obtain rfl : d = new := Option.some.inj (hd.symm.trans hnew)
    have haction : recoveryAction generation d.generation = .rollbackConfigAndRestoreCredentials := by
      rw [recoveryAction, if_neg (by rintro (h | h); exacts [hfits.1 h, by omega]), if_neg (by omega)]
    rw [haction]
    refine wp_bind'.mpr (wp_config (rollback_done hnew hrollback) (fun config hconfig => ?_) fun r config hr => ?_)
    · rcases hconfig with rfl | hnow
      · exact hjournaled _ hs
      · exact hjournaled _ ⟨hs.journal, old, hold, Or.inl hnow⟩
    · obtain ⟨rfl, hnow⟩ := hr
      have hgenerationIs : (Option.any (fun r : LoadResult => decide (r.generation = generation.toNat))
          (some ⟨false, old.slot, old.generation, old.payload⟩)) = true := decide_eq_true hknown.symm
      rw [wp_pure, hgenerationIs]
      exact hrest config hnow

/-- Without a journal there is nothing to recover. -/
theorem wp_recover_absent (h : s.bytes .provisionTxn = none) (hC : C s) :
    wp device Any C (recoverIncompleteProvisioning lib) (fun r s' => r = true ∧ s' = s) s := by
  refine wp_bind'.mpr (wp_isKey hC ?_)
  rw [h]
  exact ⟨rfl, rfl⟩

end Recovery

/-! ### Provisioning -/

/-- Everything is as it was asked for, the configuration by the comparison of `verifyPersistentConfig`, and the journal
is gone. -/
structure Provisioned {γ : Type} (lib : ConfigLibrary γ) (now : Circumstances) (request : Request γ) (s : Nvs) : Prop where
  journal : s.bytes .provisionTxn = none
  token : s.bytes .enrollTok = some request.enrollmentToken
  salt : s.bytes .adminSalt = some now.salt
  hash : ∃ hash, lib.passwordHash request.adminPassword now.salt = some hash ∧ s.bytes .adminHash = some hash
  config : ∃ d value wifiPassword, inForce s.config = some d ∧
    lib.parsePersistentConfig d.payload = some (value, wifiPassword) ∧
    lib.serializePersistentConfig value [] = lib.serializePersistentConfig (committedConfig lib now request) [] ∧
    constantTimeEqual wifiPassword request.wifiPassword = true

section Provisioning
variable {γ : Type} {lib : ConfigLibrary γ} {now : Circumstances} {request : Request γ} {s₀ s : Nvs} {C : Nvs → Prop}
variable {old : DecodedSlot}

/-- A checked write of any value: an empty one is refused. -/
theorem wp_writeBytesChecked_any {key : BytesKey} {value : Bytes} {Q : Bool → Nvs → Prop} (hC : C s)
    (hput : C (put s key (some value))) (hrefused : Q false s) (h : Q true (put s key (some value))) :
    wp device Any C (writeBytesChecked key value) Q s := by
  by_cases hvalue : value = []
  · unfold writeBytesChecked
    rw [if_pos hvalue]
    exact hrefused
  · exact wp_writeBytesChecked hvalue hC hput h

theorem wp_setEnrollmentToken {allowed : Bool} {token : Bytes} {Q : Bool → Nvs → Prop} (hC : C s)
    (hput : C (put s .enrollTok (some token))) (hrefused : Q false s) (h : Q true (put s .enrollTok (some token))) :
    wp device Any C (setEnrollmentToken allowed token) Q s := by
  unfold setEnrollmentToken
  split
  · exact wp_writeBytesChecked_any hC hput hrefused h
  · exact hrefused

/-- The verifier is written, or the call fails with the salt written or not. -/
theorem wp_persistAdminVerifier {password : Bytes} {Q : Bool → Nvs → Prop} {generation : UInt64}
    (hs : Journaled s₀ generation s) (hjournaled : ∀ s, Journaled s₀ generation s → C s)
    (hfalse : ∀ s', Journaled s₀ generation s' → s'.config = s.config → Q false s')
    (htrue : ∀ hash, lib.passwordHash password now.salt = some hash →
      Q true (put (put s .adminSalt (some now.salt)) .adminHash (some hash))) :
    wp device Any C (persistAdminVerifier lib now password) Q s := by
  unfold persistAdminVerifier
  split
  · exact hfalse s hs rfl
  have hsalt := hs.put .adminSalt (some now.salt) (by decide)
  refine wp_bind'.mpr ?_
  unfold saveCredential
  cases hhash : lib.passwordHash password now.salt with
  | none => exact hfalse s hs rfl
  | some hash =>
    have hboth := hsalt.put .adminHash (some hash) (by decide)
    refine wp_bind'.mpr (wp_writeBytesChecked_any (hjournaled _ hs) (hjournaled _ hsalt) ?_ ?_)
    · simp only [Bool.not_false, if_true]
      exact hfalse s hs rfl
    · simp only [Bool.not_true, Bool.false_eq_true, if_false]
      refine wp_writeBytesChecked_any (hjournaled _ hsalt) (hjournaled _ hboth) ?_ ?_
      · rw [wp_pure, Bool.false_and]
        exact hfalse _ hsalt rfl
      · rw [wp_pure, Bool.true_and]
        cases now.stateLocked with
        | false => exact hfalse _ hboth rfl
        | true => exact htrue hash hhash

/-- What a commit leaves can be rolled back. -/
theorem reversible_commitEnd {config config' : Store} {payload : Bytes} {r : Option CommitResult}
    (hold : inForce config = some old) (h : CommitEnd config payload r config') : Reversible old config' := by
  cases r with
  | some c => exact reversible_commitState hold h.2
  | none =>
    rcases h with rfl | ⟨hslot, hother⟩
    · exact Or.inl hold
    · have hmoment : CommitState config payload config' := .discarded hslot hother
      exact reversible_commitState hold hmoment

theorem wp_commitPersistentConfig {generation : UInt64} {value : γ} {wifiPassword : Bytes}
    {Q : Option ℕ → Nvs → Prop} (hold₀ : inForce s₀.config = some old) (hold : inForce s.config = some old)
    (hs : Journaled s₀ generation s) (hjournaled : ∀ s, Journaled s₀ generation s → C s)
    (hQ : ∀ r config, Reversible old config → Q r { s with config := config }) :
    wp device Any C (commitPersistentConfig lib value wifiPassword) Q s := by
  unfold commitPersistentConfig
  split_ifs
  · exact hQ none s.config (Or.inl hold)
  · exact hQ none s.config (Or.inl hold)
  · have hdone : ∀ o e config, Done o e config → FaultyWrite o e config :=
      fun o e config he => he ▸ faultyWrite_done o config
    have hcommit := wp_assume hdone (commit_wp s.config (lib.serializePersistentConfig value wifiPassword))
    refine wp_bind'.mpr (wp_config hcommit (fun config hconfig => ?_) fun r config hr => ?_)
    · exact hjournaled _ ⟨hs.journal, old, hold₀, reversible_commitState hold hconfig⟩
    · exact hQ _ config (reversible_commitEnd hold hr)

/-- What the writes after the journal leave: everything, or a journal to recover from. -/
def Applied (lib : ConfigLibrary γ) (now : Circumstances) (request : Request γ) (s₀ : Nvs) (r : Bool) (s : Nvs) : Prop :=
  if r then Provisioned lib now request s else Journaled s₀ now.persistentGeneration s

/-- **The writes after the journal**: at every moment the journal is there, or all is done. -/
theorem wp_applyProvisioning (hconsistent : Consistent lib now.persistentGeneration s₀)
    (hs : Journaled s₀ now.persistentGeneration s) (hconfig : inForce s.config = inForce s₀.config)
    (hjournaled : ∀ s, Journaled s₀ now.persistentGeneration s → C s)
    (hprovisioned : ∀ s, Provisioned lib now request s → C s) :
    wp device Any C (applyProvisioning lib now request) (Applied lib now request s₀) s := by
  obtain ⟨old, hold₀, -, hparse⟩ := hconsistent.config
  have hold := hconfig.trans hold₀
  unfold applyProvisioning
  have htoken := hs.put .enrollTok (some request.enrollmentToken) (by decide)
  refine wp_bind'.mpr (wp_setEnrollmentToken (hjournaled _ hs) (hjournaled _ htoken) hs ?_)
  simp only [Bool.not_true, Bool.false_eq_true, if_false]
  refine wp_bind'.mpr (wp_persistAdminVerifier htoken hjournaled (fun s' hs' _ => hs') fun hash hhash => ?_)
  simp only [Bool.not_true, Bool.false_eq_true, if_false]
  generalize hcredentials : put (put (put s .enrollTok (some request.enrollmentToken)) .adminSalt (some now.salt))
    .adminHash (some hash) = s'
  have hs' : Journaled s₀ now.persistentGeneration s' := hcredentials ▸
    (htoken.put .adminSalt _ (by decide)).put .adminHash _ (by decide)
  have hold' : inForce s'.config = some old := hcredentials ▸ hold
  refine wp_bind'.mpr (wp_commitPersistentConfig hold₀ hold' hs' hjournaled fun r config hreversible => ?_)
  have hcommitted : Journaled s₀ now.persistentGeneration { s' with config := config } := ⟨hs'.journal, old, hold₀, hreversible⟩
  split_ifs
  · exact hcommitted
  refine wp_bind'.mpr (wp_bind'.mpr (wp_loadPersistentConfig hparse hreversible
    (fun config hconfig => hjournaled _ ⟨hs'.journal, old, hold₀, hconfig⟩)
    fun value wifiPassword d config' hd hvalue hfrom => ?_))
  have hloaded : Journaled s₀ now.persistentGeneration { s' with config := config' } := by
    refine ⟨hs'.journal, old, hold₀, ?_⟩
    rcases hfrom with rfl | hback
    · exact hreversible
    · exact Or.inl hback
  simp only [wp_pure]
  split_ifs with hverified
  · exact hloaded
  · -- all is written and verified: only the journal is left
    rw [Bool.or_eq_true, not_or, Bool.not_eq_true', Bool.not_eq_false, Bool.and_eq_true, decide_eq_true_eq] at hverified
    have hend : Provisioned lib now request (put { s' with config := config' } .provisionTxn none) := by
      refine ⟨put_bytes_same .., ?_, ?_, ⟨hash, hhash, ?_⟩, d, value, wifiPassword, hd, hvalue, hverified.1⟩
      · rw [put_bytes_other (by decide), ← hcredentials]
        simp [put]
      · rw [put_bytes_other (by decide), ← hcredentials]
        simp [put]
      · rw [put_bytes_other (by decide), ← hcredentials]
        simp [put]
    exact wp_clear (hjournaled _ hloaded) (hprovisioned _ hend) hend

/-- **What may be found at any moment**: everything as it was, everything as it was asked for, or the journal. -/
inductive Recoverable (lib : ConfigLibrary γ) (now : Circumstances) (request : Request γ) (s₀ s : Nvs) : Prop
  | unchanged (h : Unchanged s₀ s)
  | provisioned (h : Provisioned lib now request s)
  | journaled (hfits : Fits (journalOf s₀ now.persistentGeneration)) (h : Journaled s₀ now.persistentGeneration s)

/-- A journal is written, or does not fit and changes nothing. -/
theorem wp_writeJournal {journal : Journal} {Q : Bool → Nvs → Prop} (hC : C s) (hfalse : Q false s)
    (hput : Fits journal → C (put s .provisionTxn (some (encode journal))))
    (htrue : Fits journal → Q true (put s .provisionTxn (some (encode journal)))) :
    wp device Any C (writeJournal journal) Q s := by
  unfold writeJournal
  by_cases hfits : Fits journal
  · have hne := encode_ne_nil hfits
    unfold write
    rw [if_neg hne, if_neg hne]
    refine wp_bind'.mpr (wp_putBytes hC ?_)
    simp only [Bool.not_true, Bool.false_eq_true, if_false]
    refine wp_bind'.mpr (wp_read (hput hfits) ?_)
    rw [put_bytes_same, Option.filter_some, if_pos (decide_eq_true hne), Option.bind_some, decode_encode hfits,
      if_pos ⟨rfl, rfl⟩]
    exact htrue hfits
  · have hnil : encode journal = [] := if_neg hfits
    rw [if_pos hnil]
    exact hfalse

/-- Preparing writes the journal, or changes nothing. -/
theorem wp_prepareProvisioningTransaction (hconsistent : Consistent lib now.persistentGeneration s₀)
    {Q : Bool → Nvs → Prop} (hfalse : Q false s₀)
    (htrue : Fits (journalOf s₀ now.persistentGeneration) →
      Q true (put s₀ .provisionTxn (some (encode (journalOf s₀ now.persistentGeneration))))) :
    wp device Any (Recoverable lib now request s₀) (prepareProvisioningTransaction now.persistentGeneration) Q s₀ := by
  have hhere : Recoverable lib now request s₀ s₀ := .unchanged ⟨rfl, rfl⟩
  obtain ⟨old, hold, -⟩ := hconsistent.config
  unfold prepareProvisioningTransaction
  split_ifs with hzero
  · exact hfalse
  refine wp_bind'.mpr (wp_getBytes hhere ?_)
  refine wp_bind'.mpr (wp_getBytes hhere ?_)
  refine wp_bind'.mpr (wp_getBytes hhere ?_)
  exact wp_writeJournal hhere hfalse (fun hfits => .journaled hfits ⟨put_bytes_same .., old, hold, Or.inl hold⟩) htrue

/-- What a recovery finds after it is what it leaves. -/
theorem wp_publishRecovered (hconsistent : Consistent lib now.persistentGeneration s₀) (hs : Unchanged s₀ s) :
    wp device Any (Recoverable lib now request s₀) (publishRecoveredProvisioningState lib now)
      (fun _ s => Unchanged s₀ s) s := by
  obtain ⟨old, hold, -, hparse⟩ := hconsistent.config
  have hback := hs.config.trans hold
  obtain ⟨⟨value, wifiPassword⟩, hvalue⟩ := Option.isSome_iff_exists.mp hparse
  obtain ⟨fallback, hload⟩ := load_of_inForce hback
  refine wp_bind'.mpr (wp_bind'.mpr (wp_loadActive (.unchanged hs) ?_))
  rw [hload]
  simp only [hvalue]
  exact hs

/-- **A provisioning**: it keeps the store recoverable at every moment, and ends with everything done or nothing. -/
theorem wp_commitProvisioning (hconsistent : Consistent lib now.persistentGeneration s₀) :
    wp device Any (Recoverable lib now request s₀) (commitProvisioning lib now request)
      (fun r s => if r then Provisioned lib now request s else Unchanged s₀ s) s₀ := by
  have hstart : Unchanged s₀ s₀ := ⟨rfl, rfl⟩
  -- a recovery, then the state it found is published
  have hfailed : ∀ s, Unchanged s₀ s ∨
      Fits (journalOf s₀ now.persistentGeneration) ∧ Journaled s₀ now.persistentGeneration s →
      wp device Any (Recoverable lib now request s₀)
        (do
          let recovered ← recoverIncompleteProvisioning lib
          let _ ← if recovered then publishRecoveredProvisioningState lib now else pure false
          return false)
        (fun r s => if r then Provisioned lib now request s else Unchanged s₀ s) s := by
    intro s hs
    have hpublish : ∀ s', Unchanged s₀ s' → wp device Any (Recoverable lib now request s₀)
        (do
          let _ ← if true then publishRecoveredProvisioningState lib now else pure false
          return false)
        (fun r s => if r then Provisioned lib now request s else Unchanged s₀ s) s' := fun s' hs' =>
      wp_bind'.mpr (wp_post (wp_publishRecovered hconsistent hs') fun _ _ h => h)
    refine wp_bind'.mpr ?_
    rcases hs with hs | ⟨hfits, hs⟩
    · refine wp_post (wp_recover_absent (by rw [hs.bytes, hconsistent.journal]) (.unchanged hs)) fun r s' h => ?_
      obtain ⟨rfl, rfl⟩ := h
      exact hpublish s' hs
    · refine wp_post (wp_recover_journaled hconsistent hfits hs (fun s h => .journaled hfits h) fun s h => .unchanged h)
        fun r s' h => ?_
      obtain ⟨rfl, hs'⟩ := h
      exact hpublish s' hs'
  unfold commitProvisioning
  split_ifs
  · exact hstart
  refine wp_bind'.mpr (wp_prepareProvisioningTransaction hconsistent ?_ fun hfits => ?_)
  · exact hfailed s₀ (Or.inl hstart)
  · obtain ⟨old, hold, -⟩ := hconsistent.config
    refine wp_bind'.mpr (wp_post (wp_applyProvisioning hconsistent ⟨put_bytes_same .., old, hold, Or.inl hold⟩ rfl
      (fun s h => .journaled hfits h) fun s h => .provisioned h) fun r s h => ?_)
    cases r with
    | true => exact h
    | false => exact hfailed s (Or.inr ⟨hfits, h⟩)

/-- **A recovery of what may be found**: it keeps that, and ends in success with everything done or nothing. -/
theorem wp_recover (hconsistent : Consistent lib now.persistentGeneration s₀) (hs : Recoverable lib now request s₀ s) :
    wp device Any (Recoverable lib now request s₀) (recoverIncompleteProvisioning lib)
      (fun r s => r = true ∧ (Unchanged s₀ s ∨ Provisioned lib now request s)) s := by
  cases hs with
  | unchanged hs =>
    refine wp_post (wp_recover_absent (by rw [hs.bytes, hconsistent.journal]) (.unchanged hs)) fun r s' h => ?_
    obtain ⟨rfl, rfl⟩ := h
    exact ⟨rfl, Or.inl hs⟩
  | provisioned hs =>
    refine wp_post (wp_recover_absent hs.journal (.provisioned hs)) fun r s' h => ?_
    obtain ⟨rfl, rfl⟩ := h
    exact ⟨rfl, Or.inr hs⟩
  | journaled hfits hs =>
    exact wp_post (wp_recover_journaled hconsistent hfits hs (fun s h => .journaled hfits h) fun s h => .unchanged h)
      fun r s' h => ⟨h.1, Or.inl h.2⟩

end Provisioning

/-! ### Any number of losses of power -/

/-- The stores after a provisioning that ran until some moment, or to its end, and recoveries that did. -/
inductive Interrupted {γ : Type} (lib : ConfigLibrary γ) (now : Circumstances) (request : Request γ) (s₀ : Nvs) : Nvs → Prop
  | commit (events : List Event) : Interrupted lib now request s₀ (run device (commitProvisioning lib now request) events s₀).1
  | recover {s : Nvs} (h : Interrupted lib now request s₀ s) (events : List Event) :
      Interrupted lib now request s₀ (run device (recoverIncompleteProvisioning lib) events s).1

variable {γ : Type} {lib : ConfigLibrary γ} {now : Circumstances} {request : Request γ} {s₀ s : Nvs}

theorem along_any {α : Type} (p : NvsProg α) (events : List Event) (s : Nvs) : Along device Any p events s :=
  along_of_forall p s fun _ _ _ _ => trivial

theorem Interrupted.recoverable (hconsistent : Consistent lib now.persistentGeneration s₀)
    (h : Interrupted lib now request s₀ s) : Recoverable lib now request s₀ s := by
  induction h with
  | commit events =>
    have hend : wp device Any (Recoverable lib now request s₀) (commitProvisioning lib now request)
        (fun _ s => Recoverable lib now request s₀ s) s₀ := wp_post (wp_commitProvisioning hconsistent) fun r s h => by
      cases r with
      | true => exact .provisioned h
      | false => exact .unchanged h
    exact (wp_run hend (along_any _ events s₀)).state
  | @recover s h events ih =>
    have hend : wp device Any (Recoverable lib now request s₀) (recoverIncompleteProvisioning lib)
        (fun _ s => Recoverable lib now request s₀ s) s :=
      wp_post (wp_recover hconsistent ih) fun r s h => h.2.elim .unchanged .provisioned
    exact (wp_run hend (along_any _ events s)).state

/-- **Provisioning is all or nothing.** After any losses of power, a recovery that ends reports success and leaves
everything as it was or everything as it was asked for, and no journal; and what is encoded as a journal is decoded
to itself. -/
theorem provisioning_all_or_nothing (hconsistent : Consistent lib now.persistentGeneration s₀)
    (h : Interrupted lib now request s₀ s) :
    (∀ events r left, (run device (recoverIncompleteProvisioning lib) events s).2 = some (r, left) →
      r = true ∧ (run device (recoverIncompleteProvisioning lib) events s).1.bytes .provisionTxn = none ∧
        (Unchanged s₀ (run device (recoverIncompleteProvisioning lib) events s).1 ∨
          Provisioned lib now request (run device (recoverIncompleteProvisioning lib) events s).1)) ∧
    ∀ journal, Fits journal → decode (encode journal) = some journal := by
  refine ⟨fun events r left hrun => ?_, fun journal hfits => decode_encode hfits⟩
  obtain ⟨hr, hend⟩ := (wp_run (wp_recover hconsistent (h.recoverable hconsistent)) (along_any _ events s)).of_result hrun
  refine ⟨hr, ?_, hend⟩
  rcases hend with hend | hend
  · rw [hend.bytes, hconsistent.journal]
  · exact hend.journal

/-- A configuration that is its version only. -/
def versionOnly : ConfigLibrary UInt32 where
  normalize value := value
  validate _ := true
  wifiSsid _ := [115]
  configVersion value := value
  withVersion version _ := version
  serializePersistentConfig value wifiPassword := leBytes 4 value.toNat ++ wifiPassword
  parsePersistentConfig payload := some (UInt32.ofNat (leNat (payload.take 4)), payload.drop 4)
  passwordHash _ _ := some (List.replicate 32 5)

/-- A store with the first version in force and no credentials. -/
def firstVersion : Nvs where
  config
    | .slotA => some (AtomicConfigStore.encodeRecord 1 (leBytes 4 1 ++ List.replicate 8 6))
    | .slotB => none
    | .active => some (encodeMarker .a 1)

def secondVersion : Request UInt32 where
  candidate := 2
  wifiPassword := List.replicate 8 1
  enrollmentToken := List.replicate 32 2
  adminPassword := List.replicate 12 3

def firstBoot : Circumstances where
  persistentGeneration := 1
  salt := List.replicate 16 4

/-- The power is lost after the second version came into force; the recovery goes back to the first one. -/
theorem provisioning_interrupted :
    (run device (recoverIncompleteProvisioning versionOnly) (List.replicate 40 .done)
      (run device (commitProvisioning versionOnly firstBoot secondVersion) (List.replicate 25 .done) firstVersion).1).1.bytes
        .provisionTxn = none := by
  have hconsistent : Consistent versionOnly firstBoot.persistentGeneration firstVersion :=
    { journal := rfl
      config := ⟨⟨.a, 1, leBytes 4 1 ++ List.replicate 8 6⟩, by decide +kernel, Or.inr rfl, rfl⟩
      nonempty := fun key h => by cases h }
  exact ((provisioning_all_or_nothing hconsistent (.commit (List.replicate 25 .done))).1 (List.replicate 40 .done) true
    (List.replicate 14 .done) (by decide +kernel)).2.1

end PowerMonitor.Config.ProvisioningAtomic
