import PowerMonitor.Storage.Faults
import PowerMonitor.Storage.Manifest

/-! # The identity of a card

A rebind moves the manifest of a card to the backup before the staged manifest takes its place, and a mount of
a card without a manifest makes a new one. Here the two are run in any order, with any failures but those of a
check whether a file is there, and the power is lost at any moment. On a bound card either the manifest is in
its place, or the backup and the staged manifest are both complete (`Bound`); so a mount never takes the card
for a blank one (`identity_kept`). -/

namespace PowerMonitor.Storage.ManifestIdentity

open PowerMonitor.Lib.Binary PowerMonitor.Lib.Json PowerMonitor.Lib.Program PowerMonitor.Storage.Media
open PowerMonitor.Storage.Segment PowerMonitor.Storage.SdStorage PowerMonitor.Storage.Manifest
open PowerMonitor.Storage.Faults

/-- A check whether a file is there does not miss it. -/
def Sees : Op → Event → Card → Prop
  | .exists _, e, _ => e ≠ .failed
  | _, _, _ => True

instance : ∀ o e s, Decidable (Sees o e s)
  | .exists _, e, _ => inferInstanceAs (Decidable (e ≠ .failed))
  | .read _, _, _ | .append _ _, _, _ | .write _ _, _, _ | .remove _, _, _ | .rename _ _, _, _
  | .ensureDirectory _, _, _ | .freeBytes, _, _ | .list _ _, _, _ => .isTrue trivial

/-! ### Programs that leave the card alone -/

section Rules

variable {C : Card → Prop} {s : Card} {path : Bytes}

theorem wp_present {Q : Bool → Card → Prop} (hC : C s) (h : Q (s.lookup path).isSome s) :
    wp device Sees C (fileExists path) Q s :=
  wp_fileExists hC h fun hfailed => absurd rfl hfailed

theorem wp_removeIfPresent {Q : Bool → Card → Prop} (hC : C s) (hkept : ∀ r, Q r s) (hgone : Q true (s.erase path)) :
    wp device Sees C (removeIfPresent path) Q s := by
  refine wp_bind'.mpr (wp_present hC ?_)
  rw [wp_ite]
  split
  · exact wp_removeFile hC (hkept false) fun _ => hgone
  · exact hkept true

theorem wp_transitionManifestValid {Q : Bool → Card → Prop} {j : JsonLibrary} {owner : Owner} {expected : Bytes}
    (hC : C s) (h : ∀ r, Q r s) : wp device Sees C (transitionManifestValid j owner path expected) Q s := by
  refine wp_bind'.mpr (wp_present hC ?_)
  rw [wp_ite]
  split
  · exact h false
  · exact wp_bind'.mpr (wp_readFile hC (h _) fun _ => h _)

theorem wp_currentCardManifestMatchesReset {Q : Bool → Card → Prop} {j : JsonLibrary} {fingerprint : Bytes}
    {expected : CardBinding} (hC : C s) (h : ∀ r, Q r s) :
    wp device Sees C (currentCardManifestMatchesReset j fingerprint expected) Q s := by
  refine wp_bind'.mpr (wp_present hC ?_)
  rw [wp_ite]
  split
  · exact h false
  · exact wp_bind'.mpr (wp_readFile hC (h _) fun _ => h _)

end Rules

/-! ### Bound cards -/

/-- A file is a manifest of the card for one of the devices. -/
def Names (j : JsonLibrary) (fingerprint : Bytes) (generation : UInt64) (devices : List Bytes) (path : Bytes)
    (s : Card) : Prop :=
  ∃ payload document, ∃ device ∈ devices, s.lookup path = some payload ∧ j.deserialize payload = some document ∧
    DocumentOf fingerprint generation device document

/-- **The card is bound to one of the devices**: its manifest is in its place, or a rebind was interrupted between
its two renames. -/
inductive Bound (j : JsonLibrary) (fingerprint : Bytes) (generation : UInt64) (devices : List Bytes) (s : Card) : Prop
  | installed (h : Names j fingerprint generation devices manifestPath s)
  | between (missing : s.lookup manifestPath = none) (backed : Names j fingerprint generation devices backupPath s)
      (staged : Names j fingerprint generation devices temporaryPath s)

variable {j : JsonLibrary} {fingerprint : Bytes} {generation : UInt64} {devices : List Bytes} {path other content : Bytes}
  {s s' : Card}

theorem Names.congr (h : Names j fingerprint generation devices path s) (hsame : s'.lookup path = s.lookup path) :
    Names j fingerprint generation devices path s' := by
  obtain ⟨payload, document, device, hdevice, hlookup, hdocument⟩ := h
  exact ⟨payload, document, device, hdevice, hsame.trans hlookup, hdocument⟩

theorem Names.erase (h : Names j fingerprint generation devices path s) (hne : path ≠ other) :
    Names j fingerprint generation devices path (s.erase other) :=
  h.congr (AList.lookup_erase_ne hne)

theorem Names.insert (h : Names j fingerprint generation devices path s) (hne : path ≠ other) :
    Names j fingerprint generation devices path (s.insert other content) :=
  h.congr (AList.lookup_insert_ne hne)

/-- A manifest that was renamed. -/
theorem Names.rename {source target : Bytes} (h : Names j fingerprint generation devices source s)
    (hcontent : s.lookup source = some content) :
    Names j fingerprint generation devices target ((s.erase source).insert target content) := by
  obtain ⟨payload, document, device, hdevice, hlookup, hdocument⟩ := h
  have hpayload : content = payload := Option.some.inj (hcontent.symm.trans hlookup)
  exact ⟨payload, document, device, hdevice, by rw [AList.lookup_insert, hpayload], hdocument⟩

theorem Names.mono {devices' : List Bytes} (h : Names j fingerprint generation devices path s)
    (hsub : ∀ device ∈ devices, device ∈ devices') : Names j fingerprint generation devices' path s := by
  obtain ⟨payload, document, device, hdevice, hlookup, hdocument⟩ := h
  exact ⟨payload, document, device, hsub device hdevice, hlookup, hdocument⟩

theorem Names.of_holds {device : Bytes} (h : Holds j fingerprint generation device s) :
    Names j fingerprint generation [device] manifestPath s := by
  obtain ⟨payload, document, hlookup, hread, hdocument⟩ := h
  exact ⟨payload, document, device, List.mem_singleton_self _, hlookup, hread, hdocument⟩

theorem Bound.mono {devices' : List Bytes} (h : Bound j fingerprint generation devices s)
    (hsub : ∀ device ∈ devices, device ∈ devices') : Bound j fingerprint generation devices' s := by
  cases h with
  | installed h => exact .installed (h.mono hsub)
  | between missing backed staged => exact .between missing (backed.mono hsub) (staged.mono hsub)

theorem manifest_ne_temporary : manifestPath ≠ temporaryPath := by decide

theorem manifest_ne_backup : manifestPath ≠ backupPath := by decide

theorem temporary_ne_backup : temporaryPath ≠ backupPath := by decide

/-! ### Mounts -/

/-- **What a mount that succeeds leaves**: the manifest names the generation of the card and one of its devices, one
that the owner accepts, and the identity says so. -/
def Kept (j : JsonLibrary) (fingerprint : Bytes) (generation : UInt64) (devices : List Bytes) (owner : Owner)
    (r : Bool × CardIdentity) (s : Card) : Prop :=
  r.1 = true → ∃ device ∈ devices, Holds j fingerprint generation device s ∧ acceptedDevice owner device = true ∧
    owner.hardwareFingerprint = fingerprint ∧ r.2 = ⟨.verified, device, generation, false⟩

theorem kept_of_failed {owner : Owner} {identity : CardIdentity} :
    Kept j fingerprint generation devices owner (false, identity) s := fun h => absurd h Bool.false_ne_true

theorem wp_installTransition {source other : Bytes} (hs : Bound j fingerprint generation devices s)
    (hsource : Names j fingerprint generation devices source s) (hother : manifestPath ≠ other) :
    wp device Sees (Bound j fingerprint generation devices) (installTransition source other)
      (fun r s => Bound j fingerprint generation devices s ∧
        (r = true → Names j fingerprint generation devices manifestPath s)) s := by
  refine wp_bind'.mpr (wp_renameFile hs ?_ fun content hcontent _ => ?_)
  · rw [wp_ite, if_pos (by decide)]
    exact ⟨hs, fun h => absurd h Bool.false_ne_true⟩
  · have hinstalled : Names j fingerprint generation devices manifestPath
        ((s.erase source).insert manifestPath content) := hsource.rename hcontent
    rw [wp_ite, if_neg (by decide)]
    refine wp_bind'.mpr (wp_removeIfPresent (.installed hinstalled) (fun r => ?_) ?_)
    · exact ⟨.installed hinstalled, fun _ => hinstalled⟩
    · exact ⟨.installed (hinstalled.erase hother), fun _ => hinstalled.erase hother⟩

/-- The recovery of a rebind that was interrupted: the staged manifest or the backup is installed, or nothing is. -/
theorem wp_settleTransition {owner : Owner} {identity : CardIdentity} (hmissing : s.lookup manifestPath = none)
    (hbacked : Names j fingerprint generation devices backupPath s)
    (hstaged : Names j fingerprint generation devices temporaryPath s) :
    wp device Sees (Bound j fingerprint generation devices) (settleTransition j owner identity)
      (fun r s => Bound j fingerprint generation devices s ∧
        (r.1 = true → Names j fingerprint generation devices manifestPath s)) s := by
  have hs : Bound j fingerprint generation devices s := .between hmissing hbacked hstaged
  refine wp_bind'.mpr (wp_transitionManifestValid hs fun installStaged => ?_)
  refine wp_bind'.mpr ?_
  have hcontinue : ∀ restorePrevious : Bool, wp device Sees (Bound j fingerprint generation devices)
      (if installStaged then do
        let installed ← installTransition temporaryPath backupPath
        return (installed, identity)
      else if restorePrevious then do
        let installed ← installTransition backupPath temporaryPath
        return (installed, identity)
      else do
        let staged ← fileExists temporaryPath
        let backed ← runIf (!staged) (fileExists backupPath) true
        if staged || backed then return (false, { identity with status := .manifestTransitionInvalid })
        else return (true, identity))
      (fun r s => Bound j fingerprint generation devices s ∧
        (r.1 = true → Names j fingerprint generation devices manifestPath s)) s := by
    intro restorePrevious
    split_ifs
    · exact wp_bind'.mpr (wp_post (wp_installTransition hs hstaged manifest_ne_backup) fun r s h => h)
    · exact wp_bind'.mpr (wp_post (wp_installTransition hs hbacked manifest_ne_temporary) fun r s h => h)
    · -- the staged manifest is there, so the mount gives up
      obtain ⟨payload, -, -, -, hlookup, -⟩ := hstaged
      refine wp_bind'.mpr (wp_present hs ?_)
      rw [hlookup, Option.isSome_some]
      refine wp_bind'.mpr ?_
      show wp device Sees _ (pure _) _ s
      exact ⟨hs, fun h => absurd h Bool.false_ne_true⟩
  unfold runIf
  split
  · exact wp_transitionManifestValid hs hcontinue
  · exact hcontinue false

theorem wp_acceptManifest {owner : Owner} {identity : CardIdentity} {payload boundDevice : Bytes}
    {document : Bytes → View} (hdevice : boundDevice ∈ devices) (hlookup : s.lookup manifestPath = some payload)
    (hread : j.deserialize payload = some document) (hdocument : DocumentOf fingerprint generation boundDevice document) :
    wp device Sees (Bound j fingerprint generation devices) (acceptManifest owner identity document)
      (fun r s => Bound j fingerprint generation devices s ∧ Kept j fingerprint generation devices owner r s) s := by
  have hbound : ∀ s' : Card, s'.lookup manifestPath = some payload →
      Bound j fingerprint generation devices s' ∧ Holds j fingerprint generation boundDevice s' := fun s' h =>
    ⟨.installed ⟨payload, document, boundDevice, hdevice, h, hread, hdocument⟩, payload, document, h, hread, hdocument⟩
  have herase : ∀ (s' : Card) (path : Bytes), s'.lookup manifestPath = some payload → manifestPath ≠ path →
      (s'.erase path).lookup manifestPath = some payload := fun s' path h hne =>
    (AList.lookup_erase_ne hne).trans h
  unfold acceptManifest
  simp only [hdocument.storedDevice, hdocument.storedFingerprint]
  rw [wp_ite]
  split
  · exact ⟨(hbound s hlookup).1, kept_of_failed⟩
  · next haccepted =>
    simp only [Bool.or_eq_true, Bool.not_eq_true', decide_eq_true_eq, not_or, Bool.not_eq_false, not_not] at haccepted
    have hdone : ∀ s' : Card, s'.lookup manifestPath = some payload →
        Bound j fingerprint generation devices s' ∧ Kept j fingerprint generation devices owner
          (true, ⟨.verified, boundDevice, (document (ascii "card_generation")).unsignedOr 0, false⟩) s' := by
      intro s' h
      have hgeneration : (document (ascii "card_generation")).unsignedOr 0 = generation := by
        rw [View.unsignedOr, if_pos hdocument.generation.1, hdocument.generation.2]
      refine ⟨(hbound s' h).1, fun _ => ⟨boundDevice, hdevice, (hbound s' h).2, haccepted.1, haccepted.2.symm, ?_⟩⟩
      rw [hgeneration]
    have hlast : ∀ s' : Card, s'.lookup manifestPath = some payload →
        wp device Sees (Bound j fingerprint generation devices) (do
            let _ ← removeIfPresent backupPath
            return ()) (fun _ s => s.lookup manifestPath = some payload) s' := fun s' h =>
      wp_bind'.mpr (wp_removeIfPresent (hbound s' h).1 (fun _ => h) (herase s' _ h manifest_ne_backup))
    have hclear : wp device Sees (Bound j fingerprint generation devices) (clearTransition (boundDevice = owner.deviceId))
        (fun _ s => s.lookup manifestPath = some payload) s := by
      unfold clearTransition
      rw [wp_ite]
      split
      · exact wp_bind'.mpr (wp_removeIfPresent (hbound s hlookup).1 (fun _ => hlast s hlookup)
          (hlast _ (herase s _ hlookup manifest_ne_temporary)))
      · exact hlookup
    exact wp_bind'.mpr (wp_post hclear fun _ s' h => hdone s' h)

/-- A mount of a card whose manifest is in its place accepts it or not. -/
theorem wp_mountManifest {owner : Owner} {creation : Creation} {identity : CardIdentity}
    (h : Names j fingerprint generation devices manifestPath s) :
    wp device Sees (Bound j fingerprint generation devices) (mountManifest j owner creation identity)
      (fun r s => Bound j fingerprint generation devices s ∧ Kept j fingerprint generation devices owner r s) s := by
  have hs : Bound j fingerprint generation devices s := .installed h
  obtain ⟨payload, document, boundDevice, hdevice, hlookup, hread, hdocument⟩ := h
  refine wp_bind'.mpr (wp_present hs ?_)
  rw [hlookup, wp_ite, if_neg (by simp)]
  refine wp_bind'.mpr (wp_readFile hs ?_ fun _ => ⟨hs, kept_of_failed⟩)
  simp only [hlookup, Option.bind_some, hread, hdocument.statedSchema, Nat.le_refl, if_true]
  exact wp_acceptManifest hdevice hlookup hread hdocument

/-- **A mount of a bound card** leaves it bound, and keeps its identity if it succeeds. -/
theorem wp_writeManifest {owner : Owner} {creation : Creation} {identity : CardIdentity}
    (h : Bound j fingerprint generation devices s) :
    wp device Sees (Bound j fingerprint generation devices) (writeManifest j owner creation identity)
      (fun r s => Bound j fingerprint generation devices s ∧ Kept j fingerprint generation devices owner r s) s := by
  refine wp_bind'.mpr (wp_present h ?_)
  cases h with
  | installed h =>
    obtain ⟨payload, -, -, -, hlookup, -⟩ := id h
    rw [hlookup, wp_ite, if_pos (by simp)]
    exact wp_mountManifest h
  | between missing backed staged =>
    rw [missing, wp_ite, if_neg (by decide)]
    refine wp_bind'.mpr (wp_post (wp_settleTransition missing backed staged) fun r s h => ?_)
    obtain ⟨settled, identity'⟩ := r
    cases settled with
    | false => exact ⟨h.1, kept_of_failed⟩
    | true => exact wp_mountManifest (h.2 rfl)

/-! ### Rebinds -/

/-- The two renames of a rebind, once the staged manifest was verified. -/
theorem wp_installRebound {owner : Owner} {expected : CardBinding}
    (h : Names j fingerprint generation devices manifestPath s)
    (hstaged : Names j fingerprint generation devices temporaryPath s) :
    wp device Sees (Bound j fingerprint generation devices) (installRebound j owner expected)
      (fun _ s => Bound j fingerprint generation devices s) s := by
  refine wp_bind'.mpr (wp_renameFile (.installed h) ?_ fun old hold _ => ?_)
  · rw [wp_ite, if_pos (by decide)]
    exact wp_bind'.mpr (wp_removeFile (.installed h) (.installed h) fun _ =>
      .installed (h.erase manifest_ne_temporary))
  · rw [wp_ite, if_neg (by decide)]
    -- the manifest is the backup now
    set s1 := (s.erase manifestPath).insert backupPath old with hs1
    have hbacked1 : Names j fingerprint generation devices backupPath s1 := h.rename hold
    have hstaged1 : Names j fingerprint generation devices temporaryPath s1 :=
      (hstaged.erase manifest_ne_temporary.symm).insert temporary_ne_backup
    have hmissing1 : s1.lookup manifestPath = none := by
      rw [hs1, AList.lookup_insert_ne manifest_ne_backup, AList.lookup_erase]
    have hbetween : Bound j fingerprint generation devices s1 := .between hmissing1 hbacked1 hstaged1
    refine wp_bind'.mpr (wp_renameFile hbetween ?_ fun new hnew _ => ?_)
    · rw [wp_ite, if_pos (by decide)]
      exact wp_bind'.mpr (wp_renameFile hbetween hbetween fun content hcontent _ =>
        .installed (hbacked1.rename hcontent))
    · rw [wp_ite, if_neg (by decide)]
      have hinstalled : Names j fingerprint generation devices manifestPath
          ((s1.erase temporaryPath).insert manifestPath new) := hstaged1.rename hnew
      refine wp_bind'.mpr (wp_currentCardManifestMatchesReset (.installed hinstalled) fun verified => ?_)
      rw [wp_ite]
      split
      · exact .installed hinstalled
      · exact wp_removeIfPresent (.installed hinstalled) (fun _ => .installed hinstalled)
          (.installed (hinstalled.erase manifest_ne_backup))

/-- A verified staged manifest: the one of the card with the device of the rebind. -/
theorem DocumentOf.staged {document document' : Bytes → View} {boundDevice assigned : Bytes}
    (h : DocumentOf fingerprint generation boundDevice document)
    (hdevice : (document' (ascii "device_id")).text = some assigned)
    (hothers : ∀ other, other ≠ ascii "device_id" → Shown (document other) (document' other))
    (hverified : storedDevice document' = assigned) : DocumentOf fingerprint generation assigned document' := by
  refine h.rebound ?_ hdevice hothers
  have hstring : cString assigned = assigned := by
    rw [storedDevice, hdevice, Option.getD_some] at hverified
    exact hverified
  rw [← hstring]
  intro hmem
  have hne := List.mem_takeWhile_imp hmem
  simp at hne

theorem wp_stageRebound {j : EditableLibrary} (hj : j.Lawful) {owner : Owner} {expected : CardBinding}
    {manifest boundDevice : Bytes} {document : Bytes → View} (hdevice : boundDevice ∈ devices)
    (hassigned : expected.deviceId ∈ devices) (hlookup : s.lookup manifestPath = some manifest)
    (hread : j.deserialize manifest = some document) (hdocument : DocumentOf fingerprint generation boundDevice document) :
    wp device Sees (Bound j.toJsonLibrary fingerprint generation devices) (stageRebound j owner expected manifest)
      (fun _ s => Bound j.toJsonLibrary fingerprint generation devices s) s := by
  obtain ⟨-, document', hread', hname, hothers⟩ :=
    hj.setText manifest document (ascii "device_id") expected.deviceId hread
  have hnames : Names j.toJsonLibrary fingerprint generation devices manifestPath s :=
    ⟨manifest, document, boundDevice, hdevice, hlookup, hread, hdocument⟩
  set payload := j.setText manifest (ascii "device_id") expected.deviceId with hpayload
  -- a staging that failed leaves the manifest, and so does the removal of what was staged
  have hdiscard : ∀ s, Names j.toJsonLibrary fingerprint generation devices manifestPath s →
      wp device Sees (Bound j.toJsonLibrary fingerprint generation devices) (do
        let _ ← removeFile temporaryPath
        return false) (fun _ s => Bound j.toJsonLibrary fingerprint generation devices s) s := fun s h =>
    wp_bind'.mpr (wp_removeFile (.installed h) (.installed h) fun _ => .installed (h.erase manifest_ne_temporary))
  have hverify : ∀ s, Names j.toJsonLibrary fingerprint generation devices manifestPath s → ∀ written,
      (written = some payload.length → s.lookup temporaryPath = some payload) →
      wp device Sees (Bound j.toJsonLibrary fingerprint generation devices) (do
        let verify ← readFile temporaryPath
        if !(written = some payload.length && (verify.bind j.deserialize).any fun staged =>
            (staged (ascii "schema_version")).asUnsigned = 2 &&
              (staged (ascii "card_generation")).asUnsigned = expected.generation &&
              storedDevice staged = expected.deviceId && storedFingerprint staged = owner.hardwareFingerprint) then
          let _ ← removeFile temporaryPath
          return false
        else installRebound j.toJsonLibrary owner expected)
        (fun _ s => Bound j.toJsonLibrary fingerprint generation devices s) s := by
    intro s h written hwritten
    refine wp_bind'.mpr (wp_readFile (.installed h) ?_ fun _ => ?_)
    · rw [wp_ite]
      split
      · exact hdiscard s h
      · next hdone =>
        simp only [Bool.not_eq_true', Bool.not_eq_false, Bool.and_eq_true, decide_eq_true_eq] at hdone
        obtain ⟨hcomplete, hvalid⟩ := hdone
        have hstaged := hwritten hcomplete
        simp only [hstaged, Option.bind_some, hread', Option.any_some, Bool.and_eq_true, decide_eq_true_eq] at hvalid
        have hdocument' := DocumentOf.staged hdocument hname hothers hvalid.1.2
        exact wp_installRebound h ⟨payload, document', expected.deviceId, hassigned, hstaged, hread', hdocument'⟩
    · rw [wp_ite, if_pos (by simp)]
      exact hdiscard s h
  have hwrite : ∀ s, Names j.toJsonLibrary fingerprint generation devices manifestPath s →
      wp device Sees (Bound j.toJsonLibrary fingerprint generation devices) (do
        let written ← writeFile temporaryPath payload
        let verify ← readFile temporaryPath
        if !(written = some payload.length && (verify.bind j.deserialize).any fun staged =>
            (staged (ascii "schema_version")).asUnsigned = 2 &&
              (staged (ascii "card_generation")).asUnsigned = expected.generation &&
              storedDevice staged = expected.deviceId && storedFingerprint staged = owner.hardwareFingerprint) then
          let _ ← removeFile temporaryPath
          return false
        else installRebound j.toJsonLibrary owner expected)
        (fun _ s => Bound j.toJsonLibrary fingerprint generation devices s) s := by
    intro s h
    refine wp_bind'.mpr (wp_writeFile (.installed h) ?_ fun part reported _ hall => ?_)
    · exact hverify s h none fun hnone => nomatch hnone
    · refine hverify _ (h.insert manifest_ne_temporary) _ fun hreported => ?_
      rw [AList.lookup_insert, hall (Option.some.inj hreported)]
  have hclear : ∀ (cleared : Bool) (s : Card), Names j.toJsonLibrary fingerprint generation devices manifestPath s →
      ∀ path, manifestPath ≠ path → wp device Sees (Bound j.toJsonLibrary fingerprint generation devices)
        (runIf cleared (removeIfPresent path) false)
        (fun _ s => Names j.toJsonLibrary fingerprint generation devices manifestPath s) s := by
    intro cleared s h path hne
    unfold runIf
    split
    · exact wp_removeIfPresent (.installed h) (fun _ => h) (h.erase hne)
    · exact h
  unfold stageRebound
  simp only [← hpayload]
  refine wp_bind'.mpr (wp_post (hclear _ s hnames _ manifest_ne_temporary) fun cleared s1 h1 => ?_)
  refine wp_bind'.mpr (wp_post (hclear cleared s1 h1 _ manifest_ne_backup) fun cleared s2 h2 => ?_)
  rw [wp_ite]
  split
  · exact .installed h2
  · exact hwrite s2 h2

/-- **A rebind of a bound card** leaves it bound, to the device it was bound to or the assigned one. -/
theorem wp_rebindCardForEnrollment {j : EditableLibrary} (hj : j.Lawful) {owner : Owner} {identity : CardIdentity}
    {mounted writable : Bool} {expectedGeneration : UInt64} {source assigned : Bytes} (hassigned : assigned ∈ devices)
    (h : Bound j.toJsonLibrary fingerprint generation devices s) :
    wp device Sees (Bound j.toJsonLibrary fingerprint generation devices)
      (rebindCardForEnrollment j owner identity mounted writable expectedGeneration source assigned)
      (fun _ s => Bound j.toJsonLibrary fingerprint generation devices s) s := by
  unfold rebindCardForEnrollment
  rw [wp_ite]
  split
  · exact h
  refine wp_bind'.mpr (wp_currentCardManifestMatchesReset h fun already => ?_)
  rw [wp_ite]
  split
  · exact h
  refine wp_bind'.mpr (wp_currentCardManifestMatchesReset h fun atSource => ?_)
  rw [wp_ite]
  split
  · exact h
  have hrebind : wp device Sees (Bound j.toJsonLibrary fingerprint generation devices)
      (rebindManifest j owner source ⟨expectedGeneration, assigned⟩)
      (fun _ s => Bound j.toJsonLibrary fingerprint generation devices s) s := by
    refine wp_bind'.mpr (wp_readFile h ?_ fun _ => h)
    cases h with
    | between missing backed staged =>
      rw [missing]
      exact .between missing backed staged
    | installed hnames =>
      obtain ⟨payload, document, boundDevice, hdevice, hlookup, hread, hdocument⟩ := hnames
      simp only [hlookup, Option.bind_some, hread]
      rw [wp_ite]
      split
      · exact .installed ⟨payload, document, boundDevice, hdevice, hlookup, hread, hdocument⟩
      · exact wp_stageRebound hj hdevice hassigned hlookup hread hdocument
  refine wp_bind'.mpr (wp_post hrebind fun rebound s' h' => ?_)
  rw [wp_ite]
  split <;> exact h'

/-! ### Any calls, any losses of power -/

/-- A call that concerns the manifest, with whatever the storage knows at that moment. -/
inductive Call
  | mount (owner : Owner) (creation : Creation) (identity : CardIdentity)
  | rebind (owner : Owner) (identity : CardIdentity) (mounted writable : Bool) (expectedGeneration : UInt64)
      (source assigned : Bytes)

def Call.program (j : EditableLibrary) : Call → CardProg Unit
  | .mount owner creation identity => do
    let _ ← writeManifest j.toJsonLibrary owner creation identity
    return ()
  | .rebind owner identity mounted writable expectedGeneration source assigned => do
    let _ ← rebindCardForEnrollment j owner identity mounted writable expectedGeneration source assigned
    return ()

/-- The device that a call assigns. -/
def Call.assigns : Call → List Bytes
  | .mount _ _ _ => []
  | .rebind _ _ _ _ _ _ assigned => [assigned]

/-- The card after calls that ran to their end or until the power was lost, and the devices they assigned. -/
inductive Runs (j : EditableLibrary) (s₀ : Card) : List Bytes → Card → Prop
  | start : Runs j s₀ [] s₀
  | call {assigned : List Bytes} {s : Card} (h : Runs j s₀ assigned s) (c : Call) (events : List Event)
      (along : Along device Sees (c.program j) events s) :
      Runs j s₀ (assigned ++ c.assigns) (run device (c.program j) events s).1

theorem wp_program {j : EditableLibrary} (hj : j.Lawful) {c : Call} (hassigned : ∀ device ∈ c.assigns, device ∈ devices)
    (h : Bound j.toJsonLibrary fingerprint generation devices s) :
    wp device Sees (Bound j.toJsonLibrary fingerprint generation devices) (c.program j)
      (fun _ s => Bound j.toJsonLibrary fingerprint generation devices s) s := by
  cases c with
  | mount owner creation identity => exact wp_bind'.mpr (wp_post (wp_writeManifest h) fun _ _ h => h.1)
  | rebind owner identity mounted writable expectedGeneration source assigned =>
    have hmem : assigned ∈ devices := hassigned assigned (List.mem_singleton_self _)
    exact wp_bind'.mpr (wp_post (wp_rebindCardForEnrollment hj hmem h) fun _ _ h => h)

theorem Runs.bound {j : EditableLibrary} (hj : j.Lawful) {s₀ : Card} {boundDevice : Bytes}
    (hholds : Holds j.toJsonLibrary fingerprint generation boundDevice s₀) {assigned : List Bytes}
    (h : Runs j s₀ assigned s) : Bound j.toJsonLibrary fingerprint generation (boundDevice :: assigned) s := by
  induction h with
  | start => exact .installed (.of_holds hholds)
  | @call assigned s _ c events along ih =>
    have hbefore : Bound j.toJsonLibrary fingerprint generation (boundDevice :: (assigned ++ c.assigns)) s :=
      ih.mono fun device hdevice => by
        rw [List.mem_cons, List.mem_append]
        exact (List.mem_cons.mp hdevice).imp_right Or.inl
    refine (wp_run (wp_program hj (fun device hdevice => ?_) hbefore) along).state
    rw [List.mem_cons, List.mem_append]
    exact Or.inr (Or.inr hdevice)

/-- **The identity of a card is never made anew.** On a card that was bound, after any mounts and rebinds, with any
losses of power, a mount that succeeds leaves a manifest with the generation of the card, for its device or one
that a rebind assigned; and the owner accepts that device and has the fingerprint of the manifest. -/
theorem identity_kept {j : EditableLibrary} (hj : j.Lawful) {s₀ : Card} {boundDevice : Bytes}
    (hholds : Holds j.toJsonLibrary fingerprint generation boundDevice s₀) {assigned : List Bytes}
    (h : Runs j s₀ assigned s) (owner : Owner) (creation : Creation) (identity : CardIdentity) {events left : List Event}
    (halong : Along device Sees (writeManifest j.toJsonLibrary owner creation identity) events s)
    {result : Bool × CardIdentity}
    (hrun : (run device (writeManifest j.toJsonLibrary owner creation identity) events s).2 = some (result, left))
    (hdone : result.1 = true) :
    ∃ kept, (kept = boundDevice ∨ kept ∈ assigned) ∧
      Holds j.toJsonLibrary fingerprint generation kept
        (run device (writeManifest j.toJsonLibrary owner creation identity) events s).1 ∧
      (kept = owner.deviceId ∨ owner.acceptedPreviousDeviceId ≠ [] ∧ kept = owner.acceptedPreviousDeviceId) ∧
      owner.hardwareFingerprint = fingerprint ∧ result.2 = ⟨.verified, kept, generation, false⟩ := by
  have hend := (wp_run (wp_writeManifest (h.bound hj hholds)) halong).of_result hrun
  obtain ⟨kept, hkept, hmanifest, haccepted, hfingerprint, hidentity⟩ := hend.2 hdone
  refine ⟨kept, List.mem_cons.mp hkept, hmanifest, ?_, hfingerprint, hidentity⟩
  simpa [acceptedDevice] using haccepted

def sensorFirst : Bytes := ascii "7c9e6679-7425-40de-944b-e07fc1f90ae7"
def sensorSecond : Bytes := ascii "1f0b2a44-93c1-4d0e-8a57-2b6c5d9e0f31"

def firstOwner : Owner := { deviceId := sensorFirst, hardwareFingerprint := ascii "a4cf12ab34cd" }
def secondOwner : Owner := { deviceId := sensorSecond, hardwareFingerprint := ascii "a4cf12ab34cd" }

/-- The card of the first device. -/
def firstCard : Card :=
  (∅ : Card).insert manifestPath (textJson.serialize (manifestDocument firstOwner { generation := 7 }))

theorem firstCard_holds : Holds textEditable.toJsonLibrary (ascii "a4cf12ab34cd") 7 sensorFirst firstCard := by
  have htexts : firstOwner.Texts := ⟨by decide, by decide⟩
  obtain ⟨document, hread, hdocument⟩ :=
    documentOf_manifestDocument textEditable_lawful.toLawful htexts { generation := 7 }
  exact ⟨_, document, AList.lookup_insert _, hread, hdocument⟩

def rebindSecond : Call :=
  .rebind firstOwner { status := .verified, deviceId := sensorFirst, generation := 7 } true true 7 sensorFirst sensorSecond

/-- The power is lost between the two renames of the rebind; the mount installs the staged manifest. -/
theorem identity_kept_between : ∃ kept, (kept = sensorFirst ∨ kept ∈ [sensorSecond]) ∧
    Holds textJson (ascii "a4cf12ab34cd") 7 kept
      (run device (writeManifest textJson secondOwner { generation := 8 } {}) (List.replicate 10 .done)
        (run device (rebindSecond.program textEditable) (List.replicate 10 .done) firstCard).1).1 ∧
    (kept = secondOwner.deviceId ∨
      secondOwner.acceptedPreviousDeviceId ≠ [] ∧ kept = secondOwner.acceptedPreviousDeviceId) ∧
    secondOwner.hardwareFingerprint = ascii "a4cf12ab34cd" ∧
    (⟨.verified, sensorSecond, 7, false⟩ : CardIdentity) = ⟨.verified, kept, 7, false⟩ := by
  have hfacts : Along device Sees (rebindSecond.program textEditable) (List.replicate 10 .done) firstCard ∧
      Along device Sees (writeManifest textEditable.toJsonLibrary secondOwner { generation := 8 } {})
        (List.replicate 10 .done)
        (run device (rebindSecond.program textEditable) (List.replicate 10 .done) firstCard).1 ∧
      (run device (writeManifest textEditable.toJsonLibrary secondOwner { generation := 8 } {})
        (List.replicate 10 .done)
        (run device (rebindSecond.program textEditable) (List.replicate 10 .done) firstCard).1).2 =
          some ((true, ⟨.verified, sensorSecond, 7, false⟩), []) := by decide +kernel
  obtain ⟨hrebind, halong, hrun⟩ := hfacts
  have hruns : Runs textEditable firstCard [sensorSecond]
      (run device (rebindSecond.program textEditable) (List.replicate 10 .done) firstCard).1 :=
    .call .start rebindSecond (List.replicate 10 .done) hrebind
  exact identity_kept textEditable_lawful firstCard_holds hruns secondOwner { generation := 8 } {} halong hrun rfl

end PowerMonitor.Storage.ManifestIdentity
