import PowerMonitor.Storage.SdStorage

/-! # The manifest of a card

The manifest binds a card to a device and a hardware fingerprint and gives it a generation. A mount
(`writeManifest`) accepts the manifest of a card or writes one; an enrollment gives the card to another
device (`rebindCardForEnrollment`), through a temporary file and a backup. A card is read as `Holds`: its
manifest names a generation and a device, and no transition is left over. -/

namespace PowerMonitor.Storage.Manifest

open PowerMonitor.Lib.Binary PowerMonitor.Lib.Json PowerMonitor.Lib.Program PowerMonitor.Lib.Steady
open PowerMonitor.Storage.Media PowerMonitor.Storage.Segment PowerMonitor.Storage.SdStorage

def temporaryPath : Bytes := ascii "/POWERMON/manifest.enrollment.tmp"
def backupPath : Bytes := ascii "/POWERMON/manifest.enrollment.bak"
def initializationPath : Bytes := ascii "/POWERMON/manifest.json.tmp"

/-- The files a manifest is kept in. -/
def manifestPaths : List Bytes := [manifestPath, temporaryPath, backupPath, initializationPath]

/-- Whom the storage was begun for. -/
structure Owner where
  deviceId : Bytes
  hardwareFingerprint : Bytes
  acceptedPreviousDeviceId : Bytes := []
  deriving DecidableEq

inductive IdentityStatus
  | unknown | verified | wrongSensor | manifestInvalid | manifestTransitionInvalid | manifestWriteFailed
  deriving DecidableEq, Repr

/-- What the health says of the card. -/
structure CardIdentity where
  status : IdentityStatus := .unknown
  deviceId : Bytes := []
  generation : UInt64 := 0
  replacedOrInitialized : Bool := false
  deriving DecidableEq

/-- What a new manifest takes from the clock and the random numbers. -/
structure Creation where
  generation : UInt64
  createdAt : Option Bytes := none
  createdMonotonicMs : UInt64 := 0
  deriving DecidableEq

/-! ### Reading a manifest -/

def storedDevice (document : Bytes → View) : Bytes := cString ((document (ascii "device_id")).text.getD [])

def storedFingerprint (document : Bytes → View) : Bytes :=
  cString (((document (ascii "hardware_id_fingerprint")).text.orElse
    fun _ => (document (ascii "hardware_fingerprint")).text).getD [])

def transitionValid (owner : Owner) (expectedDevice : Bytes) (document : Bytes → View) : Bool :=
  (document (ascii "schema_version")).asUnsigned = 2 && (document (ascii "card_generation")).isUnsigned &&
    decide ((document (ascii "card_generation")).asUnsigned > 0) && storedDevice document = expectedDevice &&
    storedFingerprint document = owner.hardwareFingerprint

def transitionManifestValid (j : JsonLibrary) (owner : Owner) (path expectedDevice : Bytes) : CardProg Bool := do
  let present ← fileExists path
  if !present then return false
  else
    let content ← readFile path
    return (content.bind j.deserialize).any (transitionValid owner expectedDevice)

/-! ### Mounting -/

/-- A file of the transition takes the place of the manifest, and the other one goes. -/
def installTransition (source other : Bytes) : CardProg Bool := do
  let renamed ← renameFile source manifestPath
  if !renamed then return false
  else
    let _ ← removeIfPresent other
    return true

/-- A transition that was interrupted is finished or taken back. -/
def settleTransition (j : JsonLibrary) (owner : Owner) (identity : CardIdentity) :
    CardProg (Bool × CardIdentity) := do
  let installStaged ← transitionManifestValid j owner temporaryPath owner.deviceId
  let restorePrevious ← runIf (owner.acceptedPreviousDeviceId ≠ [])
    (transitionManifestValid j owner backupPath owner.acceptedPreviousDeviceId) false
  if installStaged then
    let installed ← installTransition temporaryPath backupPath
    return (installed, identity)
  else if restorePrevious then
    let installed ← installTransition backupPath temporaryPath
    return (installed, identity)
  else
    let staged ← fileExists temporaryPath
    let backed ← runIf (!staged) (fileExists backupPath) true
    if staged || backed then return (false, { identity with status := .manifestTransitionInvalid })
    else return (true, identity)

/-- What is left of a transition to this device goes. -/
def clearTransition (c : Bool) : CardProg Unit :=
  if c then do
    let _ ← removeIfPresent temporaryPath
    let _ ← removeIfPresent backupPath
    return ()
  else return ()

/-- The schema a manifest states; an old one states none. -/
def statedSchema (document : Bytes → View) : ℕ :=
  let schema := document (ascii "schema_version")
  if schema.isUnsigned && decide (schema.asUnsigned.toNat < 2 ^ 32) then schema.asUnsigned.toNat else 1

def acceptedDevice (owner : Owner) (device : Bytes) : Bool :=
  device = owner.deviceId || (owner.acceptedPreviousDeviceId ≠ [] && device = owner.acceptedPreviousDeviceId)

/-- A manifest that is bound to a device is accepted or not, and never written over. -/
def acceptManifest (owner : Owner) (identity : CardIdentity) (document : Bytes → View) :
    CardProg (Bool × CardIdentity) := do
  let device := storedDevice document
  if !acceptedDevice owner device || decide (storedFingerprint document ≠ owner.hardwareFingerprint) then
    return (false, { identity with status := .wrongSensor, deviceId := device })
  else
    let _ ← clearTransition (device = owner.deviceId)
    return (true, {
      status := .verified
      deviceId := device
      generation := (document (ascii "card_generation")).unsignedOr 0
      replacedOrInitialized := false })

def manifestDocument (owner : Owner) (creation : Creation) : Document :=
  [(ascii "schema_version", .scalar (.unsigned 2)),
    (ascii "record_format", .scalar (.text (ascii "PMR1"))),
    (ascii "protocol", .scalar (.text (ascii "pm-protocol/1.0.0"))),
    (ascii "authoritative_store", .scalar (.text (ascii "microSD"))),
    (ascii "device_id", .scalar (.text owner.deviceId)),
    (ascii "hardware_id_fingerprint", .scalar (.text owner.hardwareFingerprint)),
    (ascii "card_generation", .scalar (.unsigned creation.generation))] ++
    -- without a clock the source writes null, which no reader tells from nothing
    (creation.createdAt.map fun time => (ascii "created_at", Value.scalar (.text time))).toList ++
    [(ascii "created_monotonic_ms", .scalar (.unsigned creation.createdMonotonicMs))]

def discardInitialization (identity : CardIdentity) : CardProg (Bool × CardIdentity) := do
  let _ ← removeFile initializationPath
  return (false, identity)

/-- A new manifest is written, read back and put in its place. -/
def initializeManifest (j : JsonLibrary) (owner : Owner) (creation : Creation) (identity : CardIdentity) :
    CardProg (Bool × CardIdentity) := do
  let payload := j.serialize (manifestDocument owner creation)
  let _ ← removeFile initializationPath
  let written ← writeFile initializationPath payload
  if written ≠ some payload.length then discardInitialization identity
  else
    let verify ← readFile initializationPath
    if !((verify.bind j.deserialize).any fun document =>
        (document (ascii "schema_version")).asUnsigned = 2 && storedDevice document = owner.deviceId) then
      discardInitialization identity
    else
      let _ ← removeFile manifestPath
      let installed ← renameFile initializationPath manifestPath
      return (installed, {
        status := if installed then .verified else .manifestWriteFailed
        deviceId := if installed then owner.deviceId else []
        generation := if installed then creation.generation else 0
        replacedOrInitialized := installed })

/-- The manifest that is there: accepted, or upgraded if it is bound to no device. -/
def mountManifest (j : JsonLibrary) (owner : Owner) (creation : Creation) (identity : CardIdentity) :
    CardProg (Bool × CardIdentity) := do
  let present ← fileExists manifestPath
  if !present then initializeManifest j owner creation identity
  else
    let content ← readFile manifestPath
    match content.bind j.deserialize with
    | none => return (false, { identity with status := .manifestInvalid })
    | some document =>
      if 2 ≤ statedSchema document then acceptManifest owner identity document
      else initializeManifest j owner creation identity

def writeManifest (j : JsonLibrary) (owner : Owner) (creation : Creation) (identity : CardIdentity) :
    CardProg (Bool × CardIdentity) := do
  let present ← fileExists manifestPath
  if present then mountManifest j owner creation identity
  else
    let settled ← settleTransition j owner identity
    if !settled.1 then return settled else mountManifest j owner creation settled.2

/-! ### Giving the card to another device -/

/-- The staged manifest takes the place of the one that is there. -/
def installRebound (j : JsonLibrary) (owner : Owner) (expected : CardBinding) : CardProg Bool := do
  let backed ← renameFile manifestPath backupPath
  if !backed then
    let _ ← removeFile temporaryPath
    return false
  else
    let installed ← renameFile temporaryPath manifestPath
    if !installed then
      let _ ← renameFile backupPath manifestPath
      return false
    else
      let verified ← currentCardManifestMatchesReset j owner.hardwareFingerprint expected
      if !verified then return false else removeIfPresent backupPath

def stageRebound (j : EditableLibrary) (owner : Owner) (expected : CardBinding) (manifest : Bytes) :
    CardProg Bool := do
  let payload := j.setText manifest (ascii "device_id") expected.deviceId
  let cleared ← runIf (payload ≠ []) (removeIfPresent temporaryPath) false
  let cleared ← runIf cleared (removeIfPresent backupPath) false
  if !cleared then return false
  else
    let written ← writeFile temporaryPath payload
    let verify ← readFile temporaryPath
    if !(written = some payload.length && (verify.bind j.deserialize).any fun staged =>
        (staged (ascii "schema_version")).asUnsigned = 2 &&
          (staged (ascii "card_generation")).asUnsigned = expected.generation &&
          storedDevice staged = expected.deviceId && storedFingerprint staged = owner.hardwareFingerprint) then
      let _ ← removeFile temporaryPath
      return false
    else installRebound j.toJsonLibrary owner expected

/-- The manifest on the card is the one of the source. -/
def rebindManifest (j : EditableLibrary) (owner : Owner) (source : Bytes) (expected : CardBinding) :
    CardProg Bool := do
  let manifest ← readFile manifestPath
  match manifest, manifest.bind j.deserialize with
  | some content, some document =>
    if (document (ascii "schema_version")).asUnsigned ≠ 2 ∨
        (document (ascii "card_generation")).asUnsigned ≠ expected.generation ∨ storedDevice document ≠ source then
      return false
    else stageRebound j owner expected content
  | _, _ => return false

/-- What the storage knows after a rebind: for whom it works, and of the card. -/
structure Rebound where
  done : Bool
  owner : Owner
  identity : CardIdentity

def reboundTo (owner : Owner) (source assigned : Bytes) : Owner :=
  { owner with deviceId := assigned, acceptedPreviousDeviceId := source }

def rebindCardForEnrollment (j : EditableLibrary) (owner : Owner) (identity : CardIdentity)
    (mounted writable : Bool) (expectedCardGeneration : UInt64) (sourceCardDeviceId assignedDeviceId : Bytes) :
    CardProg Rebound := do
  if expectedCardGeneration = 0 ∨ sourceCardDeviceId = [] ∨ assignedDeviceId.length ≠ 36 ∨ mounted = false ∨
      writable = false ∨ identity.generation ≠ expectedCardGeneration then
    return ⟨false, owner, identity⟩
  else
    let already ← currentCardManifestMatchesReset j.toJsonLibrary owner.hardwareFingerprint
      ⟨expectedCardGeneration, assignedDeviceId⟩
    if already then
      return ⟨true, reboundTo owner sourceCardDeviceId assignedDeviceId,
        { identity with deviceId := assignedDeviceId }⟩
    else
      let atSource ← currentCardManifestMatchesReset j.toJsonLibrary owner.hardwareFingerprint
        ⟨expectedCardGeneration, sourceCardDeviceId⟩
      if !atSource then return ⟨false, owner, identity⟩
      else
        let rebound ← rebindManifest j owner sourceCardDeviceId ⟨expectedCardGeneration, assignedDeviceId⟩
        if !rebound then return ⟨false, owner, identity⟩
        else return ⟨true, reboundTo owner sourceCardDeviceId assignedDeviceId,
          { identity with deviceId := assignedDeviceId, status := .verified }⟩

/-! ### What a manifest says -/

/-- The document of a manifest: the fingerprint, the generation and the device. -/
structure DocumentOf (fingerprint : Bytes) (generation : UInt64) (device : Bytes) (document : Bytes → View) :
    Prop where
  schema : (document (ascii "schema_version")).isUnsigned = true ∧
    (document (ascii "schema_version")).asUnsigned = 2
  generation : (document (ascii "card_generation")).isUnsigned = true ∧
    (document (ascii "card_generation")).asUnsigned = generation
  device : ∃ t, (document (ascii "device_id")).text = some t ∧ cString t = device
  fingerprint : ∃ t, (document (ascii "hardware_id_fingerprint")).text.orElse
    (fun _ => (document (ascii "hardware_fingerprint")).text) = some t ∧ cString t = fingerprint

/-- The card is bound: its manifest names the generation and the device. -/
def Holds (j : JsonLibrary) (fingerprint : Bytes) (generation : UInt64) (device : Bytes) (s : Card) : Prop :=
  ∃ payload document, s.lookup manifestPath = some payload ∧ j.deserialize payload = some document ∧
    DocumentOf fingerprint generation device document

/-- The card has no manifest, and none in transition. -/
def Blank (s : Card) : Prop :=
  s.lookup manifestPath = none ∧ s.lookup temporaryPath = none ∧ s.lookup backupPath = none

variable {j : JsonLibrary} {fingerprint boundDevice : Bytes} {generation : UInt64} {document : Bytes → View} {s : Card}

theorem DocumentOf.storedDevice (h : DocumentOf fingerprint generation boundDevice document) :
    storedDevice document = boundDevice := by
  obtain ⟨t, ht, rfl⟩ := h.device
  rw [Manifest.storedDevice, ht, Option.getD_some]

theorem DocumentOf.storedFingerprint (h : DocumentOf fingerprint generation boundDevice document) :
    storedFingerprint document = fingerprint := by
  obtain ⟨t, ht, rfl⟩ := h.fingerprint
  rw [Manifest.storedFingerprint, ht, Option.getD_some]

theorem DocumentOf.statedSchema (h : DocumentOf fingerprint generation boundDevice document) :
    statedSchema document = 2 := by
  simp [Manifest.statedSchema, h.schema]

/-- **A bound card is the one a caller asks for** if the generation and the device are. -/
theorem manifestMatches_iff {payload : Bytes} (hread : j.deserialize payload = some document)
    (h : DocumentOf fingerprint generation boundDevice document) (hfingerprint : fingerprint ≠ [])
    {expected : CardBinding} (hgeneration : expected.generation ≠ 0) (hdevice : expected.deviceId ≠ []) :
    manifestMatches j fingerprint expected (some payload) = true ↔
      generation = expected.generation ∧ boundDevice = expected.deviceId := by
  obtain ⟨d, hd, hdname⟩ := h.device
  obtain ⟨f, hf, hfname⟩ := h.fingerprint
  have hschema : View.unsigned32 (document (ascii "schema_version")) = 2 := by
    simp [View.unsigned32, View.unsignedOr, h.schema]
  simp only [manifestMatches, Option.bind_some, hread, hf, hd, h.schema.1, h.generation.1, Bool.and_self,
    Bool.true_and, hschema, h.generation.2, hdname, hfname, resetManifestBindingMatches, resetCardBindingMatches,
    decide_true, Bool.and_eq_true, decide_eq_true_eq]
  tauto

/-- A card that matches is bound. -/
theorem Holds.of_matches {expected : CardBinding}
    (h : manifestMatches j fingerprint expected (s.lookup manifestPath) = true) :
    Holds j fingerprint expected.generation expected.deviceId s ∧ fingerprint ≠ [] ∧ expected.generation ≠ 0 ∧
      expected.deviceId ≠ [] := by
  cases hlookup : s.lookup manifestPath with
  | none => simp [hlookup, manifestMatches] at h
  | some payload =>
    cases hread : j.deserialize payload with
    | none => simp [hlookup, manifestMatches, hread] at h
    | some document =>
      simp only [hlookup, manifestMatches, Option.bind_some, hread] at h
      split at h
      · next f d hf hd =>
        simp only [Bool.and_eq_true, resetManifestBindingMatches, resetCardBindingMatches, decide_eq_true_eq] at h
        obtain ⟨⟨hschema, hgeneration⟩, ⟨⟨hversion, hfingerprint⟩, hf'⟩, ⟨⟨hzero, hdevice⟩, hgen⟩, hd'⟩ := h
        refine ⟨⟨payload, document, hlookup, hread, ⟨hschema, ?_⟩, ⟨hgeneration, hgen⟩, ⟨d, hd, hd'⟩, ⟨f, hf, hf'⟩⟩,
          hfingerprint, hzero, hdevice⟩
        simp only [View.unsigned32, View.unsignedOr, hschema, if_true] at hversion
        split_ifs at hversion
        · exact UInt64.toNat_inj.mp hversion
      · cases h

theorem steady_currentCardManifestMatchesReset (expected : CardBinding) (s : Card) :
    steady device .done (currentCardManifestMatchesReset j fingerprint expected) s =
      (manifestMatches j fingerprint expected (s.lookup manifestPath), s) := by
  simp only [currentCardManifestMatchesReset, steady_bind, steady_fileExists]
  cases h : s.lookup manifestPath with
  | none => simp [manifestMatches]
  | some payload => simp only [Option.isSome_some, Bool.not_true, Bool.false_eq_true, if_false, steady_bind,
      steady_readFile, h, steady_pure]

/-! ### Undisturbed mounts -/

theorem steady_runIf (c : Bool) (p : CardProg Bool) (otherwise : Bool) (s : Card) :
    steady device .done (runIf c p otherwise) s = if c then steady device .done p s else (otherwise, s) := by
  cases c <;> rfl

/-- Another file stays. -/
theorem steady_removeIfPresent (path : Bytes) (s : Card) : ∃ s',
    steady device .done (removeIfPresent path) s = (true, s') ∧ s'.lookup path = none ∧
      ∀ other, other ≠ path → s'.lookup other = s.lookup other := by
  simp only [removeIfPresent, steady_bind, steady_fileExists, steady_ite, steady_removeFile, steady_pure]
  cases h : s.lookup path with
  | none => exact ⟨s, rfl, h, fun _ _ => rfl⟩
  | some content => exact ⟨s.erase path, rfl, by simp, fun other hne => AList.lookup_erase_ne hne⟩

theorem steady_clearTransition (c : Bool) (s : Card) : ∃ s',
    steady device .done (clearTransition c) s = ((), s') ∧ s'.lookup manifestPath = s.lookup manifestPath := by
  have hne : manifestPath ≠ temporaryPath ∧ manifestPath ≠ backupPath := by decide
  cases c with
  | false => exact ⟨s, rfl, rfl⟩
  | true =>
    obtain ⟨s1, h1, -, hsame1⟩ := steady_removeIfPresent temporaryPath s
    obtain ⟨s2, h2, -, hsame2⟩ := steady_removeIfPresent backupPath s1
    refine ⟨s2, ?_, by rw [hsame2 _ hne.2, hsame1 _ hne.1]⟩
    simp only [clearTransition, if_true, steady_bind, h1, h2, steady_pure]

theorem Holds.congr (h : Holds j fingerprint generation boundDevice s) {s' : Card}
    (hsame : s'.lookup manifestPath = s.lookup manifestPath) : Holds j fingerprint generation boundDevice s' := by
  obtain ⟨payload, document, hlookup, hread, hdocument⟩ := h
  exact ⟨payload, document, hsame.trans hlookup, hread, hdocument⟩

/-- **A mount of a bound card** accepts it or not, and leaves its manifest as it is. -/
theorem Holds.mount (owner : Owner) (h : Holds j owner.hardwareFingerprint generation boundDevice s)
    (creation : Creation) (identity : CardIdentity) :
    ∃ s', steady device .done (writeManifest j owner creation identity) s =
      ((if acceptedDevice owner boundDevice then (true, ⟨.verified, boundDevice, generation, false⟩)
        else (false, { identity with status := .wrongSensor, deviceId := boundDevice })), s') ∧
      s'.lookup manifestPath = s.lookup manifestPath := by
  obtain ⟨payload, document, hlookup, hread, hdocument⟩ := h
  have hmount : steady device .done (writeManifest j owner creation identity) s =
      steady device .done (acceptManifest owner identity document) s := by
    simp only [writeManifest, mountManifest, steady_bind, steady_fileExists, hlookup, Option.isSome_some, if_true,
      Bool.not_true, Bool.false_eq_true, if_false, steady_readFile, Option.bind_some, hread,
      hdocument.statedSchema, Nat.le_refl]
  rw [hmount]
  obtain ⟨s', hclear, hsame⟩ := steady_clearTransition (boundDevice = owner.deviceId) s
  by_cases haccepted : acceptedDevice owner boundDevice = true
  · refine ⟨s', ?_, hsame⟩
    simp only [acceptManifest, hdocument.storedDevice, hdocument.storedFingerprint, haccepted, Bool.not_true,
      ne_eq, not_true_eq_false, decide_false, Bool.or_self, Bool.false_eq_true, if_false, steady_bind, hclear,
      steady_pure, View.unsignedOr, hdocument.generation, if_true]
  · refine ⟨s, ?_, rfl⟩
    simp only [Bool.not_eq_true] at haccepted
    simp only [acceptManifest, hdocument.storedDevice, haccepted, Bool.not_false, Bool.true_or, if_true,
      steady_pure, Bool.false_eq_true, if_false]

/-- The texts of the owner are C strings. -/
structure Owner.Texts (owner : Owner) : Prop where
  device : 0 ∉ owner.deviceId
  fingerprint : 0 ∉ owner.hardwareFingerprint

theorem nodup_manifestDocument (owner : Owner) (creation : Creation) :
    ((manifestDocument owner creation).map Prod.fst).Nodup := by
  obtain ⟨generation, createdAt, createdMonotonicMs⟩ := creation
  cases createdAt with
  | none =>
    have hnames : (manifestDocument owner ⟨generation, none, createdMonotonicMs⟩).map Prod.fst =
        (manifestDocument ⟨[], [], []⟩ ⟨0, none, 0⟩).map Prod.fst := rfl
    rw [hnames]
    decide
  | some time =>
    have hnames : (manifestDocument owner ⟨generation, some time, createdMonotonicMs⟩).map Prod.fst =
        (manifestDocument ⟨[], [], []⟩ ⟨0, some [], 0⟩).map Prod.fst := rfl
    rw [hnames]
    decide

/-- **A new manifest** names its owner and its generation. -/
theorem documentOf_manifestDocument (hj : j.Lawful) {owner : Owner} (htexts : owner.Texts) (creation : Creation) :
    ∃ document, j.deserialize (j.serialize (manifestDocument owner creation)) = some document ∧
      DocumentOf owner.hardwareFingerprint creation.generation owner.deviceId document := by
  obtain ⟨document, hread, hshows⟩ := hj.readsBack _ (nodup_manifestDocument owner creation)
  have hschema := hshows (ascii "schema_version") (.scalar (.unsigned 2)) (by simp [manifestDocument])
  have hgeneration := hshows (ascii "card_generation") (.scalar (.unsigned creation.generation))
    (by simp [manifestDocument])
  have hdevice := hshows (ascii "device_id") (.scalar (.text owner.deviceId)) (by simp [manifestDocument])
  have hfingerprint := hshows (ascii "hardware_id_fingerprint") (.scalar (.text owner.hardwareFingerprint))
    (by simp [manifestDocument])
  simp only [Shows] at hschema hgeneration hdevice hfingerprint
  refine ⟨document, hread, ⟨hschema.2, hschema.1⟩, ⟨hgeneration.2, hgeneration.1⟩, ⟨_, hdevice, ?_⟩,
    ⟨owner.hardwareFingerprint, ?_, ?_⟩⟩
  · exact cString_of_notMem htexts.device
  · rw [hfingerprint]
    rfl
  · exact cString_of_notMem htexts.fingerprint

theorem steady_initializeManifest (hj : j.Lawful) {owner : Owner} (htexts : owner.Texts) (creation : Creation)
    (identity : CardIdentity) (hmissing : s.lookup manifestPath = none) :
    ∃ s', steady device .done (initializeManifest j owner creation identity) s =
      ((true, ⟨.verified, owner.deviceId, creation.generation, true⟩), s') ∧
      Holds j owner.hardwareFingerprint creation.generation owner.deviceId s' := by
  obtain ⟨document, hread, hdocument⟩ := documentOf_manifestDocument hj htexts creation
  have hne : manifestPath ≠ initializationPath := by decide
  set payload := j.serialize (manifestDocument owner creation) with hpayload
  obtain ⟨s1, hremove, hsame⟩ : ∃ s1, steady device .done (removeFile initializationPath) s =
      ((s.lookup initializationPath).isSome, s1) ∧ s1.lookup manifestPath = none := by
    refine ⟨_, steady_removeFile _ _, ?_⟩
    split
    · rw [AList.lookup_erase_ne hne, hmissing]
    · exact hmissing
  obtain ⟨s2, hs2⟩ : ∃ s2, s2 = s1.insert initializationPath payload := ⟨_, rfl⟩
  have hwrite : steady device .done (writeFile initializationPath payload) s1 = (some payload.length, s2) := by
    rw [steady_writeFile, hs2]
  have hwritten : s2.lookup initializationPath = some payload := by rw [hs2, AList.lookup_insert]
  have hmissing2 : s2.lookup manifestPath = none := by rw [hs2, AList.lookup_insert_ne hne, hsame]
  have hgone : steady device .done (removeFile manifestPath) s2 = (false, s2) := by
    rw [steady_removeFile, hmissing2]
    rfl
  refine ⟨(s2.erase initializationPath).insert manifestPath payload, ?_, payload, document, AList.lookup_insert _,
    hread, hdocument⟩
  simp only [initializeManifest, steady_bind, hremove, ← hpayload, hwrite, ne_eq, not_true_eq_false, if_false,
    steady_readFile, hwritten, Option.bind_some, hread, Option.any_some, hdocument.schema.2,
    hdocument.storedDevice, decide_true, Bool.and_self, Bool.not_true, Bool.false_eq_true, hgone,
    steady_renameFile hwritten hmissing2, if_true, steady_pure]

/-- **A mount of a blank card** binds it to the owner. -/
theorem Blank.mount (hj : j.Lawful) (h : Blank s) {owner : Owner} (htexts : owner.Texts) (creation : Creation)
    (identity : CardIdentity) :
    ∃ s', steady device .done (writeManifest j owner creation identity) s =
      ((true, ⟨.verified, owner.deviceId, creation.generation, true⟩), s') ∧
      Holds j owner.hardwareFingerprint creation.generation owner.deviceId s' := by
  obtain ⟨hmanifest, htemporary, hbackup⟩ := h
  obtain ⟨s', hinit, hholds⟩ := steady_initializeManifest hj htexts creation identity hmanifest
  have htransition : ∀ path expected, s.lookup path = none →
      steady device .done (transitionManifestValid j owner path expected) s = (false, s) := by
    intro path expected hnone
    simp only [transitionManifestValid, steady_bind, steady_fileExists, hnone, Option.isSome_none, Bool.not_false,
      if_true, steady_pure]
  have hsettle : steady device .done (settleTransition j owner identity) s = ((true, identity), s) := by
    simp only [settleTransition, steady_bind, steady_runIf, htransition _ _ htemporary, htransition _ _ hbackup,
      ite_self, Bool.false_eq_true, if_false, steady_fileExists, htemporary, hbackup, Option.isSome_none,
      Bool.not_false, if_true, Bool.or_self, steady_pure]
  refine ⟨s', ?_, hholds⟩
  simp only [writeManifest, steady_bind, steady_fileExists, hmanifest, Option.isSome_none, Bool.false_eq_true,
    if_false, hsettle, Bool.not_true, mountManifest, Bool.not_false, if_true, hinit]

/-! ### Undisturbed rebinds -/

theorem DocumentOf.rebound {document' : Bytes → View} {assigned : Bytes}
    (h : DocumentOf fingerprint generation boundDevice document) (htext : 0 ∉ assigned)
    (hdevice : (document' (ascii "device_id")).text = some assigned)
    (hothers : ∀ other, other ≠ ascii "device_id" → Shown (document other) (document' other)) :
    DocumentOf fingerprint generation assigned document' := by
  have hschema := (hothers (ascii "schema_version") (by decide)).unsigned h.schema.1
  have hgeneration := (hothers (ascii "card_generation") (by decide)).unsigned h.generation.1
  have hnew := (hothers (ascii "hardware_id_fingerprint") (by decide)).text
  have hold := (hothers (ascii "hardware_fingerprint") (by decide)).text
  obtain ⟨t, ht, htname⟩ := h.fingerprint
  refine ⟨⟨hschema.1, hschema.2.trans h.schema.2⟩, ⟨hgeneration.1, hgeneration.2.trans h.generation.2⟩,
    ⟨assigned, hdevice, cString_of_notMem htext⟩, ⟨t, ?_, htname⟩⟩
  rw [hnew, hold]
  exact ht

/-- The staged manifest is installed. -/
theorem steady_installRebound {owner : Owner} {expected : CardBinding} {old new : Bytes}
    (hmanifest : s.lookup manifestPath = some old) (hstaged : s.lookup temporaryPath = some new)
    (hbackup : s.lookup backupPath = none)
    (hmatches : manifestMatches j owner.hardwareFingerprint expected (some new) = true) :
    ∃ s', steady device .done (installRebound j owner expected) s = (true, s') ∧
      s'.lookup manifestPath = some new := by
  have hmt : manifestPath ≠ temporaryPath := by decide
  have hmb : manifestPath ≠ backupPath := by decide
  have htb : temporaryPath ≠ backupPath := by decide
  have hbacked := steady_renameFile hmanifest hbackup
  obtain ⟨s1, hs1⟩ : ∃ s1, s1 = (s.erase manifestPath).insert backupPath old := ⟨_, rfl⟩
  have hstaged1 : s1.lookup temporaryPath = some new := by
    rw [hs1, AList.lookup_insert_ne htb, AList.lookup_erase_ne hmt.symm, hstaged]
  have hmissing1 : s1.lookup manifestPath = none := by
    rw [hs1, AList.lookup_insert_ne hmb, AList.lookup_erase]
  obtain ⟨s2, hs2⟩ : ∃ s2, s2 = (s1.erase temporaryPath).insert manifestPath new := ⟨_, rfl⟩
  have hinstalled2 : s2.lookup manifestPath = some new := by rw [hs2, AList.lookup_insert]
  obtain ⟨s3, hremove, -, hsame⟩ := steady_removeIfPresent backupPath s2
  refine ⟨s3, ?_, by rw [hsame _ hmb, hinstalled2]⟩
  rw [← hs1] at hbacked
  have hrenamed := steady_renameFile hstaged1 hmissing1
  rw [← hs2] at hrenamed
  simp only [installRebound, steady_bind, hbacked, Bool.not_true, Bool.false_eq_true, if_false, hrenamed,
    steady_currentCardManifestMatchesReset, hinstalled2, hmatches, hremove]

theorem steady_stageRebound {j : EditableLibrary} (hj : j.Lawful) {owner : Owner} {manifest : Bytes}
    (expected : CardBinding) (hmanifest : s.lookup manifestPath = some manifest)
    (hread : j.deserialize manifest = some document)
    (hdocument : DocumentOf owner.hardwareFingerprint expected.generation boundDevice document)
    (htext : 0 ∉ expected.deviceId) (hfingerprint : owner.hardwareFingerprint ≠ [])
    (hgeneration : expected.generation ≠ 0) (hdevice : expected.deviceId ≠ []) :
    ∃ s', steady device .done (stageRebound j owner expected manifest) s = (true, s') ∧
      Holds j.toJsonLibrary owner.hardwareFingerprint expected.generation expected.deviceId s' := by
  obtain ⟨hne, document', hread', hname, hothers⟩ :=
    hj.setText manifest document (ascii "device_id") expected.deviceId hread
  have hdocument' := hdocument.rebound htext hname hothers
  obtain ⟨payload, hpayload⟩ : ∃ payload, payload = j.setText manifest (ascii "device_id") expected.deviceId :=
    ⟨_, rfl⟩
  rw [← hpayload] at hne hread'
  have hmt : manifestPath ≠ temporaryPath := by decide
  have hmb : manifestPath ≠ backupPath := by decide
  have htb : temporaryPath ≠ backupPath := by decide
  obtain ⟨s1, hremove1, htemporary1, hsame1⟩ := steady_removeIfPresent temporaryPath s
  obtain ⟨s2, hremove2, hbackup2, hsame2⟩ := steady_removeIfPresent backupPath s1
  obtain ⟨s3, hs3⟩ : ∃ s3, s3 = s2.insert temporaryPath payload := ⟨_, rfl⟩
  have hwrite : steady device .done (writeFile temporaryPath payload) s2 = (some payload.length, s3) := by
    rw [steady_writeFile, hs3]
  have hstaged3 : s3.lookup temporaryPath = some payload := by rw [hs3, AList.lookup_insert]
  have hmanifest3 : s3.lookup manifestPath = some manifest := by
    rw [hs3, AList.lookup_insert_ne hmt, hsame2 _ hmb, hsame1 _ hmt, hmanifest]
  have hbackup3 : s3.lookup backupPath = none := by rw [hs3, AList.lookup_insert_ne htb.symm, hbackup2]
  have hmatches : manifestMatches j.toJsonLibrary owner.hardwareFingerprint expected (some payload) = true :=
    (manifestMatches_iff hread' hdocument' hfingerprint hgeneration hdevice).mpr ⟨rfl, rfl⟩
  obtain ⟨s', hinstall, hinstalled⟩ := steady_installRebound hmanifest3 hstaged3 hbackup3 hmatches
  refine ⟨s', ?_, payload, document', hinstalled, hread', hdocument'⟩
  simp only [stageRebound, ← hpayload, steady_bind, steady_runIf, ne_eq, hne, not_false_eq_true, decide_true,
    if_true, hremove1, hremove2, Bool.not_true, Bool.false_eq_true, if_false, hwrite, steady_readFile, hstaged3,
    Option.bind_some, hread', Option.any_some, hdocument'.schema.2, hdocument'.generation.2,
    hdocument'.storedDevice, hdocument'.storedFingerprint, Bool.and_self, hinstall]

/-- **A rebind of a bound card** gives it to the assigned device. -/
theorem Holds.rebind {j : EditableLibrary} (hj : j.Lawful) {owner : Owner} {identity : CardIdentity}
    {assigned : Bytes} (h : Holds j.toJsonLibrary owner.hardwareFingerprint generation boundDevice s)
    (hfingerprint : owner.hardwareFingerprint ≠ []) (hgeneration : generation ≠ 0) (hsource : boundDevice ≠ [])
    (hlength : assigned.length = 36) (htext : 0 ∉ assigned) (hidentity : identity.generation = generation) :
    ∃ s' status, steady device .done
      (rebindCardForEnrollment j owner identity true true generation boundDevice assigned) s =
        (⟨true, reboundTo owner boundDevice assigned,
          { identity with deviceId := assigned, status := status }⟩, s') ∧
      (status = .verified ∨ status = identity.status) ∧
      Holds j.toJsonLibrary owner.hardwareFingerprint generation assigned s' := by
  have hassigned : assigned ≠ [] := by
    rintro rfl
    simp at hlength
  obtain ⟨payload, document, hlookup, hread, hdocument⟩ := h
  have hguard : ¬ (generation = 0 ∨ boundDevice = [] ∨ assigned.length ≠ 36 ∨ true = false ∨ true = false ∨
      identity.generation ≠ generation) := by
    simp [hgeneration, hsource, hlength, hidentity]
  have hbinding : ∀ deviceId, deviceId ≠ [] →
      (manifestMatches j.toJsonLibrary owner.hardwareFingerprint ⟨generation, deviceId⟩ (some payload) = true ↔
        generation = generation ∧ boundDevice = deviceId) := fun deviceId hne =>
    manifestMatches_iff hread hdocument hfingerprint hgeneration hne
  by_cases hsame : boundDevice = assigned
  · refine ⟨s, identity.status, ?_, Or.inr rfl, payload, document, hlookup, hread, hsame ▸ hdocument⟩
    simp only [rebindCardForEnrollment, if_neg hguard, steady_bind, steady_currentCardManifestMatchesReset, hlookup,
      (hbinding assigned hassigned).mpr ⟨rfl, hsame⟩, if_true, steady_pure]
  · have hnot : manifestMatches j.toJsonLibrary owner.hardwareFingerprint ⟨generation, assigned⟩ (some payload) =
        false := Bool.eq_false_iff.mpr fun hmatch => hsame ((hbinding assigned hassigned).mp hmatch).2
    obtain ⟨s', hstage, hholds⟩ := steady_stageRebound hj ⟨generation, assigned⟩ hlookup hread hdocument
      htext hfingerprint hgeneration hassigned
    refine ⟨s', .verified, ?_, Or.inl rfl, hholds⟩
    simp only [rebindCardForEnrollment, if_neg hguard, steady_bind, steady_currentCardManifestMatchesReset, hlookup,
      hnot, (hbinding boundDevice hsource).mpr ⟨rfl, rfl⟩, Bool.false_eq_true, if_false, Bool.not_true,
      rebindManifest, steady_readFile, Option.bind_some, hread, hdocument.schema.2, hdocument.generation.2,
      hdocument.storedDevice, ne_eq, not_true_eq_false, or_self, hstage, steady_pure]

end PowerMonitor.Storage.Manifest
