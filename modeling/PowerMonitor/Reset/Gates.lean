import Mathlib.Logic.Relation
import PowerMonitor.Config.Enrollment
import PowerMonitor.Reset.Policy
import PowerMonitor.Storage.Manifest

/-! # The gates of a data reset

While a data reset is under way, the configuration is frozen and no records are written. A boot with a
completed reset releases these gates only if the card is the one the reset was completed on
(`beginCoordinator`), and so does every later attempt (`applyGates`). A card that is accepted for the device may be
another one: a new card after a replacement, or the same card given to another device. So recording goes
on exactly if the mounted card has the generation and the device of the completed record
(`released_iff_recorded`). -/

namespace PowerMonitor.Reset.Gates

open PowerMonitor.Lib.Binary PowerMonitor.Lib.Json PowerMonitor.Lib.Program PowerMonitor.Lib.Steady
open PowerMonitor.Config.Enrollment (EnrollmentActivationInfo)
open PowerMonitor.Reset.Policy PowerMonitor.Storage.Media PowerMonitor.Storage.SdStorage
open PowerMonitor.Storage.Manifest
open Relation (ReflTransGen)

/-! ### The gates -/

inductive AdmissionOwner
  | idle | reset | disruptiveOperation
  deriving DecidableEq, Repr

structure GateState where
  configurationFrozen : Bool := false
  recordWritesEnabled : Bool := true
  admissionOwner : AdmissionOwner := .idle
  deriving DecidableEq

def gatesReleased (gates : GateState) : Bool :=
  !gates.configurationFrozen && gates.recordWritesEnabled && gates.admissionOwner ≠ .reset

def readingGateRequired (state : State) : Bool :=
  state = .preparing || state = .prepared || state = .committing || state = .attentionRequired

/-- The reset owns the admission unless another operation does. -/
def claimResetAdmission (gates : GateState) : Bool × GateState :=
  match gates.admissionOwner with
  | .idle => (true, { gates with admissionOwner := .reset })
  | .reset => (true, gates)
  | .disruptiveOperation => (false, gates)

def releaseResetAdmission (gates : GateState) : GateState :=
  if gates.admissionOwner = .reset then { gates with admissionOwner := .idle } else gates

/-- The card a record was made on. -/
def recordBinding (record : Record) : CardBinding where
  generation := record.prepared.cardGeneration
  deviceId := record.prepare.deviceId

def verifyDataResetCardBinding (j : JsonLibrary) (fingerprint : Bytes) (record : Record) : CardProg Bool :=
  currentCardManifestMatchesReset j fingerprint (recordBinding record)

/-- A completed record whose card is not the one in the slot. -/
def completedCardUnverified (j : JsonLibrary) (fingerprint : Bytes) (record : Option Record) : CardProg Bool :=
  match record with
  | none => return false
  | some record =>
    if record.state = .completed then do
      let verified ← verifyDataResetCardBinding j fingerprint record
      return !verified
    else return false

def applyGates (j : JsonLibrary) (fingerprint : Bytes) (record : Option Record) (enabled : Bool) (gates : GateState) :
    CardProg (Bool × GateState) :=
  if enabled then
    let claimed := claimResetAdmission gates
    if !claimed.1 then return (false, gates)
    else return (true, { claimed.2 with configurationFrozen := true, recordWritesEnabled := false })
  else do
    let unverified ← completedCardUnverified j fingerprint record
    if unverified then return (false, gates)
    else
      let released := releaseResetAdmission { gates with recordWritesEnabled := true, configurationFrozen := false }
      return (gatesReleased released, released)

/-- What the store of the record gave: a failure, or a record or none. -/
abbrev Loaded := Option (Option Record)

def beginCoordinator (j : JsonLibrary) (fingerprint : Bytes) (loaded : Loaded) (gates : GateState) : CardProg (Bool × GateState) :=
  match loaded with
  | none => do
    let closed ← applyGates j fingerprint none true gates
    return (false, closed.2)
  | some record => do
    let unverified ← completedCardUnverified j fingerprint record
    let gated := record.any fun r => readingGateRequired r.state || unverified
    let applied ← applyGates j fingerprint record gated gates
    if !applied.1 then
      let closed ← applyGates j fingerprint record true applied.2
      return (false, closed.2)
    else return (true, applied.2)

/-- A terminal record opens the gates when it can. -/
def tick (j : JsonLibrary) (fingerprint : Bytes) (record : Option Record) (gates : GateState) : CardProg GateState :=
  if record.all (fun r => terminalState r.state) && !gatesReleased gates then do
    let applied ← applyGates j fingerprint record false gates
    return applied.2
  else return gates

/-! ### The device after the reset -/

/-- The device with its card, once a reset has completed. -/
structure World where
  card : Card
  deviceId : Bytes
  hardwareId : Bytes
  record : Record
  identity : CardIdentity := {}
  writable : Bool := false
  gates : GateState := {}
  running : Bool := false

/-- For whom the storage is begun. -/
def World.storageDevice (w : World) : Bytes := if w.deviceId = [] then w.hardwareId else w.deviceId

def World.owner (w : World) : Option EnrollmentActivationInfo → Owner
  | none => { deviceId := w.storageDevice, hardwareFingerprint := w.hardwareId }
  | some activation => {
      deviceId := activation.deviceId
      hardwareFingerprint := w.hardwareId
      acceptedPreviousDeviceId := activation.sourceCardDeviceId }

/-- The card of a pending enrollment is given to its device; between the mount and the rebind, the boot
also clears the readings and raises the sequence floor. -/
def activateEnrollment (j : EditableLibrary) (owner : Owner) (identity : CardIdentity) (writable : Bool)
    (activation : EnrollmentActivationInfo) : CardProg (Option CardIdentity) := do
  let sourceManifest := identity.deviceId = activation.sourceCardDeviceId
  let assignedManifest := identity.deviceId = activation.deviceId
  let activeDevice := if sourceManifest then activation.sourceCardDeviceId else activation.deviceId
  if writable = false ∨ identity.generation ≠ activation.sourceCardGeneration ∨
      ¬ (sourceManifest ∨ assignedManifest) then return none
  else
    let rebound ← rebindCardForEnrollment j owner identity true writable activation.sourceCardGeneration
      activeDevice activation.deviceId
    let verified ← runIf rebound.done (currentCardManifestMatchesReset j.toJsonLibrary owner.hardwareFingerprint
      ⟨activation.sourceCardGeneration, activation.deviceId⟩) false
    return if verified then some rebound.identity else none

/-- What a boot finds: the identity of the card, whether it can be written, whether a pending enrollment is
activated, and the gates if the boot did not fail. -/
structure Booted where
  identity : CardIdentity
  writable : Bool
  activated : Bool := false
  gates : Option GateState := none

/-- A boot: the mount, an enrollment that is pending, and the coordinator. `usable` stands for the rest of
the mount, the self test and the recovery. -/
def bootProgram (j : EditableLibrary) (owner : Owner) (activation : Option EnrollmentActivationInfo)
    (creation : Creation) (usable : Bool) (record : Record) : CardProg Booted := do
  let mounted ← writeManifest j.toJsonLibrary owner creation {}
  let writable := mounted.1 && usable
  let activated ← match activation with
    | none => pure (some mounted.2)
    | some activation => activateEnrollment j owner mounted.2 writable activation
  match activated with
  | none => return { identity := mounted.2, writable := writable }
  | some identity =>
    let begun ← beginCoordinator j.toJsonLibrary owner.hardwareFingerprint (some (some record)) {}
    return {
      identity := identity
      writable := writable
      activated := true
      gates := if begun.1 then some begun.2 else none }

/-- What may happen later: boots, perhaps with a pending enrollment; a blank card in the place of the old
one; the end of an enrollment; attempts to open the gates; and work on the other files of the card. -/
inductive Action
  | boot (activation : Option EnrollmentActivationInfo) (creation : Creation) (usable : Bool)
  | replaceCard
  | unenroll
  | tick
  | card (o : Op) (e : Event)

def World.after (j : EditableLibrary) (w : World) : Action → World
  | .boot activation creation usable =>
    let out := steady device .done (bootProgram j (w.owner activation) activation creation usable w.record) w.card
    { w with
      card := out.2
      deviceId := match activation with
        | some activation => if out.1.activated then activation.deviceId else w.deviceId
        | none => w.deviceId
      identity := out.1.identity
      writable := out.1.writable
      gates := out.1.gates.getD {}
      running := out.1.gates.isSome }
  | .replaceCard => { w with card := ∅, running := false }
  | .unenroll => { w with deviceId := [] }
  | .tick =>
    let out := steady device .done (tick j.toJsonLibrary w.hardwareId (some w.record) w.gates) w.card
    { w with card := out.2, gates := out.1 }
  | .card o e => { w with card := (device.act o e w.card).1 }

/-- The mounted card can be written and is verified for the device. -/
def World.Ready (w : World) : Prop :=
  w.running = true ∧ w.writable = true ∧ w.identity.status = .verified ∧ w.identity.deviceId = w.storageDevice

/-- The gates are released, and an attempt to release them succeeds. -/
def World.Released (j : EditableLibrary) (w : World) : Prop :=
  gatesReleased w.gates = true ∧
    (steady device .done (applyGates j.toJsonLibrary w.hardwareId (some w.record) false w.gates) w.card).1.1 = true

/-- The mounted card has the generation and the device of the record. -/
def World.Recorded (w : World) : Prop :=
  w.identity.generation = w.record.prepared.cardGeneration ∧ w.identity.deviceId = w.record.prepare.deviceId

/-- **The gates were released for a completed reset**, on the card that is in the slot. -/
structure Start (j : EditableLibrary) (w : World) : Prop where
  completed : w.record.state = .completed
  bound : manifestMatches j.toJsonLibrary w.hardwareId (recordBinding w.record) (w.card.lookup manifestPath) = true
  released : gatesReleased w.gates = true
  mounted : w.running = true → w.Recorded
  hardwareText : 0 ∉ w.hardwareId
  deviceText : 0 ∉ w.deviceId

/-- An enrollment is pending with what `parseActivation` accepts. -/
def ValidActivation (activation : EnrollmentActivationInfo) : Prop :=
  lowercaseUuid activation.deviceId = true ∧ boundedPrintable activation.sourceCardDeviceId 64 = true ∧
    activation.sourceCardGeneration > 0

/-- Actions the device takes: pending enrollments are valid, and the manifest is left to the mount and the
enrollment. -/
def Action.Valid : Action → Prop
  | .boot (some activation) _ _ => ValidActivation activation
  | .card o _ => ∃ paths, o.Within paths ∧ ∀ path ∈ manifestPaths, path ∉ paths
  | _ => True

/-! ### The gates, undisturbed -/

variable {j : EditableLibrary} {w : World} {s : Card} {binding : Option CardBinding}

theorem steady_completedCardUnverified {fingerprint : Bytes} {record : Record} (hstate : record.state = .completed)
    (s : Card) :
    steady device .done (completedCardUnverified j.toJsonLibrary fingerprint (some record)) s =
      (!manifestMatches j.toJsonLibrary fingerprint (recordBinding record) (s.lookup manifestPath), s) := by
  simp only [completedCardUnverified, hstate, if_true, verifyDataResetCardBinding, steady_bind,
    steady_currentCardManifestMatchesReset, steady_pure]

/-- The gates once they are opened. -/
def opened (gates : GateState) : GateState :=
  releaseResetAdmission { gates with recordWritesEnabled := true, configurationFrozen := false }

theorem gatesReleased_opened (gates : GateState) : gatesReleased (opened gates) = true := by
  obtain ⟨frozen, writes, owner⟩ := gates
  cases owner <;> rfl

/-- **An attempt to open the gates** succeeds if the card is the one of the record. -/
theorem steady_openGates {fingerprint : Bytes} {record : Record} (hstate : record.state = .completed)
    (gates : GateState) (s : Card) :
    steady device .done (applyGates j.toJsonLibrary fingerprint (some record) false gates) s =
      (if manifestMatches j.toJsonLibrary fingerprint (recordBinding record) (s.lookup manifestPath) then
        (true, opened gates) else (false, gates), s) := by
  have hopened := gatesReleased_opened gates
  simp only [applyGates, Bool.false_eq_true, if_false, steady_bind, steady_completedCardUnverified hstate]
  cases manifestMatches j.toJsonLibrary fingerprint (recordBinding record) (s.lookup manifestPath) with
  | true => exact congrArg (fun b => ((b, opened gates), s)) hopened
  | false => rfl

/-- **The coordinator's start** releases the gates if the card is the one of the record. -/
theorem steady_beginCoordinator (fingerprint : Bytes) {record : Record} (hstate : record.state = .completed)
    (s : Card) : ∃ gates,
    steady device .done (beginCoordinator j.toJsonLibrary fingerprint (some (some record)) {}) s =
      ((true, gates), s) ∧
    gatesReleased gates = manifestMatches j.toJsonLibrary fingerprint (recordBinding record) (s.lookup manifestPath) := by
  have hgate : readingGateRequired record.state = false := by
    rw [hstate]
    rfl
  simp only [beginCoordinator, steady_bind, steady_completedCardUnverified hstate, Option.any_some, hgate,
    Bool.false_or]
  cases hmatch : manifestMatches j.toJsonLibrary fingerprint (recordBinding record) (s.lookup manifestPath) with
  | true =>
    refine ⟨opened {}, ?_, gatesReleased_opened _⟩
    simp only [Bool.not_true, steady_openGates hstate, hmatch, if_true, Bool.false_eq_true, if_false, steady_pure]
  | false => exact ⟨_, rfl, rfl⟩

/-! ### The binding of the card -/

/-- The card is blank, or bound. -/
def Carries (j : JsonLibrary) (fingerprint : Bytes) : Option CardBinding → Card → Prop
  | none, s => Blank s
  | some binding, s => Holds j fingerprint binding.generation binding.deviceId s

/-- The binding after a mount: a blank card is bound to the owner. -/
def mountedBinding (owner : Owner) (creation : Creation) (binding : Option CardBinding) : CardBinding :=
  binding.getD ⟨creation.generation, owner.deviceId⟩

def mountAccepts (owner : Owner) (binding : Option CardBinding) : Bool :=
  binding.all fun b => acceptedDevice owner b.deviceId

/-- **A mount** of a card, in terms of its binding. -/
theorem Carries.mount (hj : j.Lawful) {owner : Owner} (htexts : owner.Texts) (creation : Creation)
    {binding : Option CardBinding} (h : Carries j.toJsonLibrary owner.hardwareFingerprint binding s) :
    ∃ identity s', steady device .done (writeManifest j.toJsonLibrary owner creation {}) s =
        ((mountAccepts owner binding, identity), s') ∧
      Carries j.toJsonLibrary owner.hardwareFingerprint (some (mountedBinding owner creation binding)) s' ∧
      (identity.status = .verified ↔ mountAccepts owner binding = true) ∧
      (mountAccepts owner binding = true →
        (⟨identity.generation, identity.deviceId⟩ : CardBinding) = mountedBinding owner creation binding) := by
  cases binding with
  | none =>
    obtain ⟨s', hmount, hnew⟩ := Blank.mount hj.toLawful h htexts creation {}
    exact ⟨_, s', hmount, hnew, by simp [mountAccepts], fun _ => rfl⟩
  | some binding =>
    obtain ⟨s', hmount, hsame⟩ := Holds.mount owner h creation {}
    have hkept := Holds.congr h hsame
    by_cases haccepted : acceptedDevice owner binding.deviceId = true
    · rw [if_pos haccepted] at hmount
      exact ⟨_, s', by rw [hmount, mountAccepts, Option.all_some, haccepted], hkept, by simp [mountAccepts, haccepted],
        fun _ => rfl⟩
    · rw [if_neg haccepted] at hmount
      rw [Bool.not_eq_true] at haccepted
      exact ⟨_, s', by rw [hmount, mountAccepts, Option.all_some, haccepted], hkept, by simp [mountAccepts, haccepted],
        fun h => by simp [mountAccepts, haccepted] at h⟩

/-- The card is the one of the record. -/
theorem Carries.matches_iff {fingerprint : Bytes} {binding : CardBinding}
    (h : Carries j.toJsonLibrary fingerprint (some binding) s) (expected : CardBinding) (hfingerprint : fingerprint ≠ [])
    (hgeneration : expected.generation ≠ 0) (hdevice : expected.deviceId ≠ []) :
    manifestMatches j.toJsonLibrary fingerprint expected (s.lookup manifestPath) = true ↔ binding = expected := by
  obtain ⟨payload, document, hlookup, hread, hdocument⟩ := h
  rw [hlookup, manifestMatches_iff hread hdocument hfingerprint hgeneration hdevice]
  obtain ⟨generation, deviceId⟩ := binding
  obtain ⟨generation', deviceId'⟩ := expected
  simp

theorem length_of_lowercaseUuid {value : Bytes} (h : lowercaseUuid value = true) : value.length = 36 := by
  simp only [lowercaseUuid, Bool.and_eq_true, decide_eq_true_eq] at h
  tauto

theorem zero_notMem_of_lowercaseUuid {value : Bytes} (h : lowercaseUuid value = true) : 0 ∉ value := by
  intro hmem
  simp only [lowercaseUuid, Bool.and_eq_true, List.all_eq_true] at h
  obtain ⟨i, hi, hzero⟩ := List.getElem_of_mem hmem
  have hall := h.2 (value[i], i) (by rw [List.mk_mem_zipIdx_iff_getElem?, List.getElem?_eq_getElem hi])
  rw [hzero] at hall
  simp only at hall
  split_ifs at hall
  · cases hall
  · cases hall

/-- The enrollment finds the card it is for. -/
def activates (activation : EnrollmentActivationInfo) (writable : Bool) (binding : CardBinding) : Prop :=
  writable = true ∧ binding.generation = activation.sourceCardGeneration ∧
    (binding.deviceId = activation.sourceCardDeviceId ∨ binding.deviceId = activation.deviceId)

instance (activation : EnrollmentActivationInfo) (writable : Bool) (binding : CardBinding) :
    Decidable (activates activation writable binding) := by unfold activates; infer_instance

/-- **A pending enrollment** gives the card to its device, or is not activated. -/
theorem Carries.activate (hj : j.Lawful) {owner : Owner} (identity : CardIdentity) (writable : Bool)
    {activation : EnrollmentActivationInfo} (hvalid : ValidActivation activation)
    (hfingerprint : owner.hardwareFingerprint ≠ []) {binding : CardBinding}
    (h : Carries j.toJsonLibrary owner.hardwareFingerprint (some binding) s)
    (hidentity : writable = true → identity.status = .verified ∧
      (⟨identity.generation, identity.deviceId⟩ : CardBinding) = binding) :
    (¬ activates activation writable binding →
      steady device .done (activateEnrollment j owner identity writable activation) s = (none, s)) ∧
    (activates activation writable binding → ∃ rebound s',
      steady device .done (activateEnrollment j owner identity writable activation) s = (some rebound, s') ∧
      Carries j.toJsonLibrary owner.hardwareFingerprint (some ⟨binding.generation, activation.deviceId⟩) s' ∧
      rebound.status = .verified ∧ rebound.generation = binding.generation ∧
      rebound.deviceId = activation.deviceId) := by
  obtain ⟨huuid, hprintable, hpositive⟩ := hvalid
  have hlength := length_of_lowercaseUuid huuid
  have hassigned : activation.deviceId ≠ [] := by
    intro hnil
    rw [hnil] at hlength
    simp at hlength
  constructor
  · intro hnot
    have hguard : writable = false ∨ identity.generation ≠ activation.sourceCardGeneration ∨
        ¬ (identity.deviceId = activation.sourceCardDeviceId ∨ identity.deviceId = activation.deviceId) := by
      cases writable with
      | false => exact Or.inl rfl
      | true =>
        obtain ⟨-, rfl⟩ := hidentity rfl
        simp only [activates, true_and, not_and_or] at hnot
        exact Or.inr hnot
    simp only [activateEnrollment, if_pos hguard, steady_pure]
  · rintro ⟨rfl, hgeneration, hdevice⟩
    obtain ⟨hverified, rfl⟩ := hidentity rfl
    have hguard : ¬ (true = false ∨ identity.generation ≠ activation.sourceCardGeneration ∨
        ¬ (identity.deviceId = activation.sourceCardDeviceId ∨ identity.deviceId = activation.deviceId)) := by
      rintro (hfalse | hgen | hdev)
      · cases hfalse
      · exact hgen hgeneration
      · exact hdev hdevice
    have hsource : activation.sourceCardDeviceId ≠ [] := by
      intro hnil
      rw [hnil] at hprintable
      simp [boundedPrintable] at hprintable
    have hactive : (if identity.deviceId = activation.sourceCardDeviceId then activation.sourceCardDeviceId
        else activation.deviceId) = identity.deviceId := by
      split_ifs with heq
      · exact heq.symm
      · exact (hdevice.resolve_left heq).symm
    have hne : identity.deviceId ≠ [] := by
      rcases hdevice with heq | heq
      · exact fun hnil => hsource (heq.symm.trans hnil)
      · exact fun hnil => hassigned (heq.symm.trans hnil)
    have hzero : activation.sourceCardGeneration ≠ 0 := fun heq => by
      rw [heq] at hpositive
      exact absurd hpositive (by decide)
    have hbound : Holds j.toJsonLibrary owner.hardwareFingerprint activation.sourceCardGeneration identity.deviceId s :=
      hgeneration ▸ h
    obtain ⟨s', status, hrebind, hstatus, hnew⟩ :=
      hbound.rebind hj hfingerprint hzero hne hlength (zero_notMem_of_lowercaseUuid huuid) hgeneration
    have hcarries : Carries j.toJsonLibrary owner.hardwareFingerprint
        (some ⟨activation.sourceCardGeneration, activation.deviceId⟩) s' := hnew
    have hmatches := (hcarries.matches_iff ⟨activation.sourceCardGeneration, activation.deviceId⟩
      hfingerprint hzero hassigned).mpr rfl
    refine ⟨{ identity with deviceId := activation.deviceId, status := status }, s', ?_, ?_,
      hstatus.elim id fun heq => heq.trans hverified, rfl, rfl⟩
    · simp only [activateEnrollment, if_neg hguard, hactive, steady_bind, hrebind, steady_runIf, if_true,
        steady_currentCardManifestMatchesReset, hmatches, steady_pure]
    · rw [← hgeneration] at hcarries
      exact hcarries

/-! ### One boot -/

/-- The binding after a boot. -/
def bootBinding (owner : Owner) (activation : Option EnrollmentActivationInfo) (creation : Creation) (usable : Bool)
    (binding : Option CardBinding) : CardBinding :=
  let mounted := mountedBinding owner creation binding
  match activation with
  | none => mounted
  | some activation =>
    if activates activation (mountAccepts owner binding && usable) mounted then
      ⟨mounted.generation, activation.deviceId⟩
    else mounted

/-- **What a boot leaves**: the card in its binding; and if the boot did not fail, the health says so of a
verified card, and the gates are released exactly if the binding is the one of the record. -/
theorem Carries.boot (hj : j.Lawful) {owner : Owner} (htexts : owner.Texts)
    (hfingerprint : owner.hardwareFingerprint ≠ []) {activation : Option EnrollmentActivationInfo}
    (hvalid : ∀ a, activation = some a → ValidActivation a) (creation : Creation) (usable : Bool) {record : Record}
    (hstate : record.state = .completed) (hgeneration : (recordBinding record).generation ≠ 0)
    (hdevice : (recordBinding record).deviceId ≠ []) {binding : Option CardBinding}
    (h : Carries j.toJsonLibrary owner.hardwareFingerprint binding s) : ∃ booted s',
    steady device .done (bootProgram j owner activation creation usable record) s = (booted, s') ∧
      Carries j.toJsonLibrary owner.hardwareFingerprint
        (some (bootBinding owner activation creation usable binding)) s' ∧
      ∀ gates, booted.gates = some gates →
        (booted.identity.status = .verified → (⟨booted.identity.generation, booted.identity.deviceId⟩ : CardBinding) =
          bootBinding owner activation creation usable binding) ∧
        (gatesReleased gates = true ↔
          bootBinding owner activation creation usable binding = recordBinding record) := by
  obtain ⟨identity, s1, hmount, hcard1, hverified, hidentity⟩ := h.mount hj htexts creation
  cases activation with
  | none =>
    obtain ⟨gates, hbegin, hreleased⟩ := steady_beginCoordinator (j := j) owner.hardwareFingerprint
      hstate s1
    refine ⟨⟨identity, mountAccepts owner binding && usable, true, some gates⟩, s1, ?_, hcard1, fun gates' hgates => ?_⟩
    · simp only [bootProgram, steady_bind, hmount, steady_pure, hbegin, if_true]
    · cases hgates
      exact ⟨fun hstatus => hidentity (hverified.mp hstatus),
        by rw [hreleased]; exact hcard1.matches_iff _ hfingerprint hgeneration hdevice⟩
  | some activation =>
    obtain ⟨hrefused, haccepted⟩ := hcard1.activate hj identity
      (mountAccepts owner binding && usable) (hvalid activation rfl) hfingerprint fun hwritable => by
        rw [Bool.and_eq_true] at hwritable
        exact ⟨hverified.mpr hwritable.1, hidentity hwritable.1⟩
    by_cases hactivates : activates activation (mountAccepts owner binding && usable)
        (mountedBinding owner creation binding)
    · obtain ⟨rebound, s2, hactivate, hcard2, hstatus, hgen, hdev⟩ := haccepted hactivates
      have hbinding : bootBinding owner (some activation) creation usable binding =
          ⟨(mountedBinding owner creation binding).generation, activation.deviceId⟩ := if_pos hactivates
      obtain ⟨gates, hbegin, hreleased⟩ := steady_beginCoordinator (j := j) owner.hardwareFingerprint
        hstate s2
      rw [hbinding]
      refine ⟨⟨rebound, mountAccepts owner binding && usable, true, some gates⟩, s2, ?_, hcard2, fun gates' hgates => ?_⟩
      · simp only [bootProgram, steady_bind, hmount, hactivate, hbegin, if_true, steady_pure]
      · cases hgates
        exact ⟨fun _ => by rw [hgen, hdev],
          by rw [hreleased]; exact hcard2.matches_iff _ hfingerprint hgeneration hdevice⟩
    · have hbinding : bootBinding owner (some activation) creation usable binding =
          mountedBinding owner creation binding := if_neg hactivates
      rw [hbinding]
      refine ⟨⟨identity, mountAccepts owner binding && usable, false, none⟩, s1, ?_, hcard1,
        fun gates hgates => (by cases hgates)⟩
      simp only [bootProgram, steady_bind, hmount, hrefused hactivates, steady_pure]

/-! ### Runs -/

/-- One action of the device, which may be subject to a condition. -/
inductive Step (j : EditableLibrary) (keeps : World → Action → Prop) : World → World → Prop
  | act {w : World} (action : Action) (hvalid : action.Valid) (hkeeps : keeps w action) : Step j keeps w (w.after j action)

/-- What holds of the device after a completed reset, with the binding of its card. -/
structure Sound (j : EditableLibrary) (binding : Option CardBinding) (w : World) : Prop where
  completed : w.record.state = .completed
  hardware : w.hardwareId ≠ []
  generation : (recordBinding w.record).generation ≠ 0
  device : (recordBinding w.record).deviceId ≠ []
  hardwareText : 0 ∉ w.hardwareId
  deviceText : 0 ∉ w.deviceId
  carries : Carries j.toJsonLibrary w.hardwareId binding w.card
  mounted : w.running = true → ∃ b, binding = some b ∧
    (w.identity.status = .verified → (⟨w.identity.generation, w.identity.deviceId⟩ : CardBinding) = b) ∧
    (gatesReleased w.gates = true ↔ b = recordBinding w.record)

theorem sound_start (h : Start j w) : Sound j (some (recordBinding w.record)) w := by
  obtain ⟨hholds, hhardware, hgeneration, hdevice⟩ := Holds.of_matches h.bound
  refine ⟨h.completed, hhardware, hgeneration, hdevice, h.hardwareText, h.deviceText, hholds,
    fun hrunning => ⟨_, rfl, fun _ => ?_, iff_of_true h.released rfl⟩⟩
  obtain ⟨hgen, hdev⟩ := h.mounted hrunning
  rw [hgen, hdev, recordBinding]

theorem Sound.storageDevice (h : Sound j binding w) : 0 ∉ w.storageDevice := by
  rw [World.storageDevice]
  split_ifs
  · exact h.hardwareText
  · exact h.deviceText

theorem Sound.owner (h : Sound j binding w) {activation : Option EnrollmentActivationInfo}
    (hvalid : ∀ a, activation = some a → ValidActivation a) : (w.owner activation).Texts := by
  cases activation with
  | none => exact ⟨h.storageDevice, h.hardwareText⟩
  | some a => exact ⟨zero_notMem_of_lowercaseUuid (hvalid a rfl).1, h.hardwareText⟩

/-- The binding after an action. -/
def Action.bindingAfter (w : World) (binding : Option CardBinding) : Action → Option CardBinding
  | .boot activation creation usable => some (bootBinding (w.owner activation) activation creation usable binding)
  | .replaceCard => none
  | _ => binding

theorem Carries.congr {fingerprint : Bytes} {binding : Option CardBinding} {s' : Card}
    (h : Carries j.toJsonLibrary fingerprint binding s) (hsame : ∀ p ∈ manifestPaths, s'.lookup p = s.lookup p) :
    Carries j.toJsonLibrary fingerprint binding s' := by
  have hmanifest := hsame manifestPath (by simp [manifestPaths])
  cases binding with
  | none =>
    exact ⟨hmanifest.trans h.1, (hsame temporaryPath (by simp [manifestPaths])).trans h.2.1,
      (hsame backupPath (by simp [manifestPaths])).trans h.2.2⟩
  | some b => exact Holds.congr h hmanifest

theorem owner_fingerprint (w : World) (activation : Option EnrollmentActivationInfo) :
    (w.owner activation).hardwareFingerprint = w.hardwareId := by
  cases activation <;> rfl

/-- **One action** leaves the card in its binding, and the gates released exactly if that is the binding of the
record. -/
theorem Sound.after (hj : j.Lawful) (h : Sound j binding w) {action : Action} (hvalid : action.Valid) :
    Sound j (action.bindingAfter w binding) (w.after j action) := by
  cases action with
  | boot activation creation usable =>
    have hactivation : ∀ a, activation = some a → ValidActivation a := by
      rintro a rfl
      exact hvalid
    have hfingerprint := owner_fingerprint w activation
    have hcarries : Carries j.toJsonLibrary (w.owner activation).hardwareFingerprint binding w.card :=
      hfingerprint.symm ▸ h.carries
    obtain ⟨booted, s', hboot, hcard, hgates⟩ := hcarries.boot hj (h.owner hactivation)
      (hfingerprint ▸ h.hardware) hactivation creation usable h.completed h.generation h.device
    rw [hfingerprint] at hcard
    have hdevice : 0 ∉ (w.after j (.boot activation creation usable)).deviceId := by
      simp only [World.after]
      cases activation with
      | none => exact h.deviceText
      | some a =>
        simp only
        split_ifs
        · exact zero_notMem_of_lowercaseUuid (hactivation a rfl).1
        · exact h.deviceText
    refine { h with deviceText := hdevice, carries := ?_, mounted := fun hrunning => ?_ }
    · simpa only [World.after, hboot, Action.bindingAfter] using hcard
    · simp only [World.after, hboot] at hrunning ⊢
      obtain ⟨gates, hsome⟩ := Option.isSome_iff_exists.mp hrunning
      obtain ⟨hidentity, hreleased⟩ := hgates gates hsome
      exact ⟨_, rfl, hidentity, by rw [hsome]; exact hreleased⟩
  | replaceCard =>
    exact { h with carries := ⟨rfl, rfl, rfl⟩, mounted := fun hrunning => (by cases hrunning) }
  | unenroll => exact { h with deviceText := List.not_mem_nil }
  | tick =>
    simp only [World.after, tick]
    split_ifs with hopen
    · simp only [steady_bind, steady_openGates h.completed, steady_pure]
      refine { h with mounted := fun hrunning => ?_ }
      obtain ⟨b, rfl, hidentity, hreleased⟩ := h.mounted hrunning
      have hmatches := h.carries.matches_iff _ h.hardware h.generation h.device
      refine ⟨b, rfl, hidentity, ?_⟩
      rw [← hmatches]
      split_ifs with hmatch
      · exact iff_of_true (gatesReleased_opened _) hmatch
      · rw [hreleased, ← hmatches]
    · exact { h with }
  | card o e =>
    obtain ⟨paths, hwithin, hmanifest⟩ := hvalid
    have hsame := act_sameExcept hwithin e (SameExcept.refl paths w.card)
    exact { h with carries := h.carries.congr fun p hp => hsame p (hmanifest p hp) }

theorem sound_run (hj : j.Lawful) {keeps : World → Action → Prop} {w' : World} (h : ∃ binding, Sound j binding w)
    (hrun : ReflTransGen (Step j keeps) w w') : ∃ binding, Sound j binding w' := by
  induction hrun with
  | refl => exact h
  | tail _ hstep ih =>
    obtain ⟨binding, hsound⟩ := ih
    cases hstep with
    | act action hvalid => exact ⟨_, hsound.after hj hvalid⟩

/-- The gates of a device that is ready, in terms of the card. -/
theorem Sound.released_iff (h : Sound j binding w) (hready : w.Ready) : w.Released j ↔ w.Recorded := by
  obtain ⟨hrunning, -, hverified, -⟩ := hready
  obtain ⟨b, rfl, hidentity, hreleased⟩ := h.mounted hrunning
  have hmatches := h.carries.matches_iff _ h.hardware h.generation h.device
  have hrecorded : w.Recorded ↔ b = recordBinding w.record := by
    rw [← hidentity hverified, World.Recorded, recordBinding, CardBinding.mk.injEq]
  rw [World.Released, steady_openGates h.completed, hrecorded, hreleased, ← hmatches]
  constructor
  · exact fun h => h.1
  · intro hmatch
    exact ⟨hmatch, by rw [if_pos hmatch]⟩

/-- A boot keeps the binding of the record: a card without a manifest gets its generation and its device, and
a pending enrollment gives the card to its device. -/
def World.Keeps (w : World) : Action → Prop
  | .boot activation creation _ =>
    (w.card.lookup manifestPath = none → creation.generation = w.record.prepared.cardGeneration ∧
      (w.owner activation).deviceId = w.record.prepare.deviceId) ∧
    ∀ a, activation = some a → a.deviceId = w.record.prepare.deviceId
  | _ => True

/-- The card is blank, or the one of the record. -/
def Kept (w : World) (binding : Option CardBinding) : Prop := ∀ b, binding = some b → b = recordBinding w.record

theorem Sound.kept (h : Sound j binding w) (hkept : Kept w binding) {action : Action} (hkeeps : w.Keeps action) :
    Kept (w.after j action) (action.bindingAfter w binding) := by
  cases action with
  | boot activation creation usable =>
    rintro b ⟨⟩
    obtain ⟨hblank, hactivation⟩ := hkeeps
    have hmounted : mountedBinding (w.owner activation) creation binding = recordBinding w.record := by
      cases binding with
      | some b => exact hkept b rfl
      | none =>
        obtain ⟨hgeneration, hdevice⟩ := hblank h.carries.1
        rw [mountedBinding, Option.getD_none, hgeneration, hdevice, recordBinding]
    cases activation with
    | none => exact hmounted
    | some a =>
      simp only [bootBinding, hmounted, hactivation a rfl]
      split_ifs
      · rfl
      · rfl
  | replaceCard => rintro b ⟨⟩
  | unenroll => exact hkept
  | tick => exact hkept
  | card o e => exact hkept

theorem kept_run (hj : j.Lawful) {w' : World} (h : ∃ binding, Sound j binding w ∧ Kept w binding)
    (hrun : ReflTransGen (Step j World.Keeps) w w') : ∃ binding, Sound j binding w' ∧ Kept w' binding := by
  induction hrun with
  | refl => exact h
  | tail _ hstep ih =>
    obtain ⟨binding, hsound, hkept⟩ := ih
    cases hstep with
    | act action hvalid hkeeps => exact ⟨_, hsound.after hj hvalid, hsound.kept hkept hkeeps⟩

theorem Sound.recorded (h : Sound j binding w) (hkept : Kept w binding) (hready : w.Ready) : w.Recorded := by
  obtain ⟨hrunning, -, hverified, -⟩ := hready
  obtain ⟨b, rfl, hidentity, -⟩ := h.mounted hrunning
  have hrecord := (hidentity hverified).trans (hkept b rfl)
  rw [recordBinding, CardBinding.mk.injEq] at hrecord
  exact hrecord

/-- **The gates after a completed reset**: whatever follows, a device that is ready records exactly if its card
has the generation and the device of the record; and it does if every boot keeps them. -/
theorem released_iff_recorded (hj : j.Lawful) (hstart : Start j w) :
    (∀ w', ReflTransGen (Step j fun _ _ => True) w w' → w'.Ready → (w'.Released j ↔ w'.Recorded)) ∧
    (∀ w', ReflTransGen (Step j World.Keeps) w w' → w'.Ready → w'.Released j) := by
  constructor
  · intro w' hrun hready
    obtain ⟨binding, h⟩ := sound_run hj ⟨_, sound_start hstart⟩ hrun
    exact h.released_iff hready
  · intro w' hrun hready
    obtain ⟨binding, h, hkept⟩ := kept_run hj ⟨_, sound_start hstart, by rintro b ⟨⟩; rfl⟩ hrun
    exact (h.released_iff hready).mpr (h.recorded hkept hready)

/-! ### The card is changed -/

def sensorFirst : Bytes := ascii "7c9e6679-7425-40de-944b-e07fc1f90ae7"
def sensorSecond : Bytes := ascii "1f0b2a44-93c1-4d0e-8a57-2b6c5d9e0f31"

def resetCompleted : Record := {
  state := .completed
  prepare := { deviceId := sensorFirst }
  prepared := { cardGeneration := 7 } }

/-- The device has booted with its card after the reset. -/
def resumed : World := World.after textEditable
  { card := ∅, deviceId := sensorFirst, hardwareId := ascii "a4cf12ab34cd", record := resetCompleted }
  (.boot none { generation := 7 } true)

/-- A blank card is put in, and the device boots. -/
def replaced (generation : UInt64) : World :=
  (resumed.after textEditable .replaceCard).after textEditable (.boot none { generation := generation } true)

/-- The card is given to another device. -/
def reenrolled : World := resumed.after textEditable (.boot (some {
  deviceId := sensorSecond
  sourceCardDeviceId := sensorFirst
  sourceCardGeneration := 7 }) { generation := 8 } true)

theorem changed_worlds :
    (manifestMatches textEditable.toJsonLibrary resumed.hardwareId (recordBinding resumed.record)
        (resumed.card.lookup manifestPath) = true ∧ gatesReleased resumed.gates = true ∧ resumed.Recorded) ∧
      ((replaced 8).Ready ∧ ¬ (replaced 8).Released textEditable) ∧
      (reenrolled.Ready ∧ ¬ reenrolled.Released textEditable) ∧ (replaced 7).Ready := by
  unfold World.Recorded World.Ready World.Released
  decide +kernel

theorem start_resumed : Start textEditable resumed where
  completed := rfl
  bound := changed_worlds.1.1
  released := changed_worlds.1.2.1
  mounted := fun _ => changed_worlds.1.2.2
  hardwareText := by decide
  deviceText := by decide

theorem replaced_run (generation : UInt64) :
    ReflTransGen (Step textEditable fun _ _ => True) resumed (replaced generation) :=
  .tail (.tail .refl (.act .replaceCard trivial trivial)) (.act (.boot none { generation := generation } true) trivial trivial)

theorem reenrolled_run : ReflTransGen (Step textEditable fun _ _ => True) resumed reenrolled :=
  .tail .refl (.act (.boot (some _) _ _) (by rw [Action.Valid, ValidActivation]; decide) trivial)

/-- **Recording stays frozen** on the new card, and on the card of the new enrollment. -/
theorem frozen_after_change : Start textEditable resumed ∧
    (ReflTransGen (Step textEditable fun _ _ => True) resumed (replaced 8) ∧ (replaced 8).Ready ∧
      ¬ (replaced 8).Released textEditable) ∧
    (ReflTransGen (Step textEditable fun _ _ => True) resumed reenrolled ∧ reenrolled.Ready ∧
      ¬ reenrolled.Released textEditable) := by
  obtain ⟨-, hreplaced, hreenrolled, -⟩ := changed_worlds
  exact ⟨start_resumed, ⟨replaced_run 8, hreplaced⟩, reenrolled_run, hreenrolled⟩

/-- A new card that has the generation of the record by chance. -/
theorem released_by_chance : (replaced 7).Ready ∧ ((replaced 7).Released textEditable ↔ (replaced 7).Recorded) ∧
    (replaced 7).Released textEditable := by
  have hready : (replaced 7).Ready := changed_worlds.2.2.2
  have hkept : World.Keeps (resumed.after textEditable .replaceCard) (.boot none { generation := 7 } true) :=
    ⟨fun _ => ⟨rfl, rfl⟩, fun _ h => (by cases h)⟩
  obtain ⟨hall, hkeeping⟩ := released_iff_recorded textEditable_lawful start_resumed
  exact ⟨hready, hall _ (replaced_run 7) hready,
    hkeeping _ (.tail (.tail .refl (.act .replaceCard trivial trivial)) (.act _ trivial hkept)) hready⟩

end PowerMonitor.Reset.Gates
