import PowerMonitor.Config.Enrollment
import PowerMonitor.Config.Rollback
import PowerMonitor.Lib.Observe
import PowerMonitor.Lib.Steady

/-! # Starting a re-enrollment

`beginReenrollment` clears the cursors one by one before it commits the record with the token. A boot after
a loss of power finds the old record or the pending one (`blob_of_run`): it publishes the pending one with
its token (`boot_pending`), and the old one only if the cursors still reach the floors of its activation
(`boot_enrolled`). So the operation is all or nothing exactly if no cursor that was not zero was cleared
without the pending record coming into force (`begin_all_or_nothing`). -/

namespace PowerMonitor.Config.Reenrollment

open PowerMonitor.Lib.Binary PowerMonitor.Lib.Json PowerMonitor.Lib.Program PowerMonitor.Lib.Steady
open PowerMonitor.Lib.Observe PowerMonitor.Lib.Component
open PowerMonitor.Config.AtomicConfigStore (Store Slot encodeRecord encodeMarker)
open PowerMonitor.Config.CommitAtomic PowerMonitor.Config.Rollback PowerMonitor.Config.Enrollment
open PowerMonitor.Storage.Segment (cString cString_of_notMem View.unsigned32)

variable {j : NullableLibrary} {s s' : Nvs} {r : EnrollmentRecord}

/-! ### What a boot publishes -/

/-- The value of a preference, zero if it is not there. -/
def cursor (s : Nvs) (key : NumberKey) : ℕ := (s.number key).getD 0

/-- The cursors a re-enrollment clears. -/
def cursorKeys : List NumberKey := [.serverAck, .serverMax, .removeSeq, .eventAck]

/-- The boot that follows, undisturbed. -/
def boot (j : NullableLibrary) (s : Nvs) : Option PublishedEnrollment × Nvs :=
  steady device .done (loadOrMigrateEnrollment j false) s

/-- The cursors are at or above the floors of the activation. -/
def Reached (s : Nvs) (activation : EnrollmentActivationInfo) : Prop :=
  activation.policyBound = true → activation.pending = false →
    activation.targetDataGeneration.toNat ≤ cursor s .dataGen ∧
      activation.resetBoundary.toNat ≤ cursor s .resetFloor ∧
      activation.sequenceFloor.toNat ≤ cursor s .serverAck ∧
      activation.sequenceFloor.toNat ≤ cursor s .serverMax ∧
      activation.sequenceFloor.toNat ≤ cursor s .removeSeq

/-- **An enrolled state**: the record in force has an identity, and the cursors reach the floors of the
activation it is bound to, if any. -/
structure Enrolled (j : NullableLibrary) (s : Nvs) (r : EnrollmentRecord) : Prop where
  record : (activePayload s.blob).bind (loadEnrollmentRecord j) = some r
  enrolled : r.published.enrolled = true
  reached : Reached s r.activation

theorem steady_loadActive (s : Nvs) : steady device .done loadActive s = (loadActiveOf s.blob, s) := rfl

theorem steady_loadRecordInForce (h : (activePayload s.blob).bind (loadEnrollmentRecord j) = some r) :
    steady device .done (loadRecordInForce j) s = (some r, s) := by
  obtain ⟨payload, hpayload, hrecord⟩ := Option.bind_eq_some_iff.mp h
  obtain ⟨loaded, hloaded, rfl⟩ := Option.map_eq_some_iff.mp hpayload
  simp only [loadRecordInForce, steady_bind, steady_loadActive, hloaded, hrecord, steady_pure]

theorem steady_activationReached (s : Nvs) (activation : EnrollmentActivationInfo) :
    (steady device .done (activationReached activation) s).2 = s ∧
      ((steady device .done (activationReached activation) s).1 = true ↔ Reached s activation) := by
  refine ⟨rfl, ?_⟩
  have hvalue : (steady device .done (activationReached activation) s).1 =
      !(activation.policyBound && !activation.pending &&
        (decide (cursor s .dataGen < activation.targetDataGeneration.toNat) ||
          decide (cursor s .resetFloor < activation.resetBoundary.toNat) ||
          decide (cursor s .serverAck < activation.sequenceFloor.toNat) ||
          decide (cursor s .serverMax < activation.sequenceFloor.toNat) ||
          decide (cursor s .removeSeq < activation.sequenceFloor.toNat))) := rfl
  rw [hvalue, Reached]
  cases activation.policyBound with
  | false => simp
  | true =>
    cases activation.pending with
    | true => simp
    | false =>
      simp only [Bool.true_and, Bool.not_false, Bool.not_eq_true', Bool.or_eq_false_iff,
        decide_eq_false_iff_not, not_lt, forall_const, and_assoc]

/-- An erased preference leaves the numbers and the record alone. -/
theorem steady_erasePreferenceChecked (key : BytesKey) (s : Nvs) : ∃ bytes,
    steady device .done (erasePreferenceChecked key) s = (true, { s with bytes := bytes }) := by
  have hpresent : steady device .done (isKey key) s = ((s.bytes key).isSome, s) := rfl
  simp only [erasePreferenceChecked, steady_bind, hpresent]
  cases hkey : (s.bytes key).isSome with
  | false => exact ⟨s.bytes, rfl⟩
  | true =>
    refine ⟨Function.update s.bytes key none, ?_⟩
    have hvalue : (!((Function.update s.bytes key none) key).isSome) = true := by simp
    exact Prod.ext hvalue rfl

theorem steady_erasePreferencesChecked (keys : List BytesKey) (s : Nvs) : ∃ bytes,
    steady device .done (erasePreferencesChecked keys) s = (true, { s with bytes := bytes }) := by
  induction keys generalizing s with
  | nil => exact ⟨s.bytes, rfl⟩
  | cons key keys ih =>
    obtain ⟨bytes, hfirst⟩ := steady_erasePreferenceChecked key s
    obtain ⟨bytes', hrest⟩ := ih { s with bytes := bytes }
    refine ⟨bytes', ?_⟩
    simp only [erasePreferencesChecked, steady_bind, hfirst, hrest, steady_pure, Bool.and_self]

/-- What a boot keeps: the numbers and the record. -/
theorem steady_clearEnrollmentToken (s : Nvs) : ∃ bytes,
    steady device .done (clearEnrollmentToken false) s = (true, { s with bytes := bytes }) :=
  steady_erasePreferenceChecked .enrollTok s

theorem steady_clearTokenAfter (r : EnrollmentRecord) (s : Nvs) : ∃ bytes,
    steady device .done (clearTokenAfter false r) s = (true, { s with bytes := bytes }) := by
  obtain ⟨bytes, hclear⟩ := steady_clearEnrollmentToken s
  unfold clearTokenAfter
  split_ifs with htoken
  · exact ⟨bytes, by rw [steady_bind, hclear, steady_pure]⟩
  · exact ⟨bytes, hclear⟩
  · exact ⟨s.bytes, rfl⟩

theorem boot_record (h : (activePayload s.blob).bind (loadEnrollmentRecord j) = some r) :
    boot j s = steady device .done (restoreEnrollment false r) s := by
  simp only [boot, loadOrMigrateEnrollment, steady_bind, steady_loadRecordInForce h]

/-- Once the cursors are prepared, a boot publishes the record exactly if the floors are reached. -/
theorem steady_restoreEnrollment {prepared : Nvs}
    (hprepare : steady device .done (resumeReenrollment false r.pendingReenrollmentToken) s = (true, prepared)) :
    (Reached prepared r.activation → ∃ bytes,
        steady device .done (restoreEnrollment false r) s = (some r.published, { prepared with bytes := bytes })) ∧
      (¬ Reached prepared r.activation → (steady device .done (restoreEnrollment false r) s).1 = none) := by
  obtain ⟨hkept, hreached⟩ := steady_activationReached prepared r.activation
  obtain ⟨bytes, hclear⟩ := steady_clearTokenAfter r prepared
  obtain ⟨bytes', herase⟩ := steady_erasePreferencesChecked [.deviceId, .enrollSec, .otaPub]
    { prepared with bytes := bytes }
  refine ⟨fun h => ⟨bytes', ?_⟩, fun h => ?_⟩
  · simp only [restoreEnrollment, steady_bind, hprepare, hkept, hreached.mpr h, hclear, steady_pure,
      eraseLegacyEnrollmentCopies, herase, Bool.not_true, Bool.false_eq_true, if_false]
  · have hfalse : (steady device .done (activationReached r.activation) prepared).1 = false := by
      simpa using fun hc => h (hreached.mp hc)
    simp only [restoreEnrollment, steady_bind, hprepare, hfalse, steady_pure, Bool.not_true,
      Bool.false_eq_true, if_false, Bool.not_false, if_true]

/-- **An identity is published if the cursors reach its floors**, and otherwise the boot fails. -/
theorem boot_identity (h : (activePayload s.blob).bind (loadEnrollmentRecord j) = some r)
    (htoken : r.pendingReenrollmentToken = []) :
    (Reached s r.activation → ∃ bytes, boot j s = (some r.published, { s with bytes := bytes })) ∧
      (¬ Reached s r.activation → (boot j s).1 = none) := by
  have hprepare : steady device .done (resumeReenrollment false r.pendingReenrollmentToken) s = (true, s) := by
    rw [htoken]
    rfl
  rw [boot_record h]
  exact steady_restoreEnrollment hprepare

/-! ### The pending record -/

/-- The record a re-enrollment commits. -/
def pendingRecord (token : Bytes) (generation : UInt64) : EnrollmentRecord where
  pendingReenrollmentToken := token
  reenrollmentGeneration := generation

def pendingPayload (j : NullableLibrary) (token : Bytes) (generation : UInt64) : Bytes :=
  j.serialize (reenrollmentDocument token generation)

/-- A token the device accepts, given as a C string. -/
structure TokenFits (token : Bytes) : Prop where
  least : 32 ≤ token.length
  greatest : token.length ≤ 256
  text : 0 ∉ token

theorem nodup_reenrollmentDocument (token : Bytes) (generation : UInt64) :
    ((reenrollmentDocument token generation).map Prod.fst).Nodup := by
  have h : (reenrollmentDocument token generation).map Prod.fst = (reenrollmentDocument [] 0).map Prod.fst := rfl
  rw [h]
  decide

/-- **The pending record reads back.** -/
theorem loadEnrollmentRecord_pendingPayload (hj : j.Lawful) {token : Bytes} (htoken : TokenFits token)
    {generation : UInt64} (hgeneration : generation ≠ 0) :
    loadEnrollmentRecord j (pendingPayload j token generation) = some (pendingRecord token generation) := by
  have hnodup := nodup_reenrollmentDocument token generation
  obtain ⟨view, hview, hshows⟩ := hj.toLawful.readsBack _ hnodup
  have hschema := hshows (ascii "record_schema_version") (.scalar (.unsigned 1)) (by simp [reenrollmentDocument])
  have henrolled := hshows (ascii "enrolled") (.scalar (.boolean false)) (by simp [reenrollmentDocument])
  have htext := hshows (ascii "pending_reenrollment_token") (.scalar (.text token)) (by simp [reenrollmentDocument])
  have hgen := hshows (ascii "reenrollment_generation") (.scalar (.unsigned generation))
    (by simp [reenrollmentDocument])
  have htokenThere := hj.present _ hnodup (ascii "pending_reenrollment_token") (.text token)
    (by simp [reenrollmentDocument])
  have hgenThere := hj.present _ hnodup (ascii "reenrollment_generation") (.unsigned generation)
    (by simp [reenrollmentDocument])
  simp only [Shows] at hschema henrolled htext hgen
  have hone : View.unsigned32 (view (ascii "record_schema_version")) = 1 := by
    simp [View.unsigned32, View.unsignedOr, hschema]
  simp only [loadEnrollmentRecord, pendingPayload, hview, Option.bind_eq_bind, Option.bind_some, hone, henrolled,
    htokenThere, hgenThere, hgen, loadUnenrolled, htext, cString_of_notMem htoken.text]
  simpa [pendingRecord] using ⟨htoken.least, htoken.greatest, hgeneration⟩

theorem steady_writeChecked (key : NumberKey) (value : ℕ) (s : Nvs) :
    steady device .done (writeChecked key value) s =
      (true, { s with number := Function.update s.number key (some value) }) := by
  have hvalue : (steady device .done (writeChecked key value) s).1 =
      decide ((Function.update s.number key (some value)) key = some value) := rfl
  exact Prod.ext (by rw [hvalue]; simp) rfl

theorem steady_setEnrollmentToken {token : Bytes} (htoken : TokenFits token) (s : Nvs) :
    steady device .done (setEnrollmentToken false token) s =
      (true, { s with bytes := Function.update s.bytes .enrollTok (some token) }) := by
  have hleast := htoken.least
  have hgreatest := htoken.greatest
  have hne : token ≠ [] := by
    rintro rfl
    simp at hleast
  have hvalue : (steady device .done (putBytes .enrollTok token) s) =
      (true, { s with bytes := Function.update s.bytes .enrollTok (some token) }) := rfl
  have hread : ∀ t : Nvs, steady device .done (getBytes .enrollTok) t = (t.bytes .enrollTok, t) := fun _ => rfl
  simp only [setEnrollmentToken, writeBytesChecked, Nat.not_lt.mpr hleast, Nat.not_lt.mpr hgreatest,
    decide_false, Bool.or_self, Bool.false_eq_true, if_false, if_neg hne, steady_bind, hvalue, Bool.not_true, hread,
    Function.update_self, decide_true, steady_pure]

theorem steady_prepareReenrollment {token : Bytes} (htoken : TokenFits token) (s : Nvs) : ∃ prepared : Nvs,
    steady device .done (prepareReenrollment false token) s = (true, prepared) := by
  refine ⟨_, Prod.ext ?_ rfl⟩
  simp only [prepareReenrollment, steady_bind, steady_setEnrollmentToken htoken, andThen, if_true,
    writeULong64Checked, writeUIntChecked, steady_writeChecked, steady_pure, reenrollmentPrerequisitesReady,
    Bool.and_self]

/-- **A pending record is published** with its token and its generation. -/
theorem boot_pending (hj : j.Lawful) {token : Bytes} (htoken : TokenFits token) {generation : UInt64}
    (hgeneration : generation ≠ 0) (h : activePayload s.blob = some (pendingPayload j token generation)) :
    (boot j s).1 = some (pendingRecord token generation).published := by
  have hrecord : (activePayload s.blob).bind (loadEnrollmentRecord j) = some (pendingRecord token generation) := by
    rw [h]
    exact loadEnrollmentRecord_pendingPayload hj htoken hgeneration
  have hne : token ≠ [] := by
    rintro rfl
    have := htoken.least
    simp at this
  obtain ⟨prepared, hprepared⟩ := steady_prepareReenrollment htoken s
  have hresume : steady device .done (resumeReenrollment false (pendingRecord token generation).pendingReenrollmentToken)
      s = (true, prepared) := by
    rw [resumeReenrollment, if_pos (show (pendingRecord token generation).pendingReenrollmentToken ≠ [] from hne)]
    exact hprepared
  obtain ⟨bytes, hrestore⟩ := (steady_restoreEnrollment hresume).1 (fun hbound => by cases hbound)
  rw [boot_record hrecord, hrestore]

/-! ### An identity has no token -/

theorem parseActivation_pending {document : Bytes → View} {pending : Bool} {a : EnrollmentActivationInfo}
    (h : parseActivation document pending = some a) : a.pending = pending := by
  simp only [parseActivation, Option.bind_eq_bind, Option.bind_eq_some_iff] at h
  obtain ⟨operationId, -, deviceId, -, source, -, h⟩ := h
  split_ifs at h
  all_goals
    cases h
    rfl

theorem loadPending_pending {document : Bytes → View} {tokenIsNull : Bool} {generation : UInt64}
    (h : loadPending document tokenIsNull generation = some r) : r.activation.pending = true := by
  simp only [loadPending, Option.bind_eq_bind] at h
  rw [ite_eq_iff] at h
  obtain ⟨-, h⟩ | ⟨-, h⟩ := h
  · cases h
  obtain ⟨key, -, h⟩ := Option.bind_eq_some_iff.mp h
  obtain ⟨activation, hactivation, h⟩ := Option.bind_eq_some_iff.mp h
  obtain ⟨secret, -, h⟩ := Option.bind_eq_some_iff.mp h
  split_ifs at h
  cases h
  exact parseActivation_pending hactivation

theorem loadUnenrolled_deviceId {document : Bytes → View} {tokenIsNull : Bool} {generation : UInt64}
    (h : loadUnenrolled document tokenIsNull generation = some r) : r.deviceId = [] := by
  simp only [loadUnenrolled, Option.bind_eq_bind] at h
  split_ifs at h
  · cases h
    rfl
  · obtain ⟨token, -, h⟩ := Option.bind_eq_some_iff.mp h
    split_ifs at h
    cases h
    rfl

theorem loadEnrolled_token {document : Bytes → View} {schema : ℕ} {tokenIsNull : Bool} {generation : UInt64}
    (h : loadEnrolled document schema tokenIsNull generation = some r) : r.pendingReenrollmentToken = [] := by
  simp only [loadEnrolled, Option.bind_eq_bind] at h
  rw [ite_eq_iff] at h
  obtain ⟨-, h⟩ | ⟨-, h⟩ := h
  · cases h
  obtain ⟨deviceId, -, h⟩ := Option.bind_eq_some_iff.mp h
  obtain ⟨secret, -, h⟩ := Option.bind_eq_some_iff.mp h
  obtain ⟨key, -, h⟩ := Option.bind_eq_some_iff.mp h
  split_ifs at h
  · obtain ⟨activation, -, h⟩ := Option.bind_eq_some_iff.mp h
    split_ifs at h
    cases h
    rfl
  · cases h
    rfl

/-- **A record with an identity has no token.** -/
theorem token_of_enrolled {payload : Bytes} (h : loadEnrollmentRecord j payload = some r)
    (henrolled : r.published.enrolled = true) : r.pendingReenrollmentToken = [] := by
  have hpending : r.activation.pending = false ∧ r.deviceId ≠ [] := by
    simpa [EnrollmentRecord.published] using henrolled
  obtain ⟨document, -, h⟩ := Option.bind_eq_some_iff.mp h
  obtain ⟨enrolled, -, h⟩ := Option.bind_eq_some_iff.mp h
  obtain ⟨-, h⟩ | ⟨-, h⟩ := ite_eq_iff.mp h
  · cases h
  obtain ⟨-, h⟩ | ⟨-, h⟩ := ite_eq_iff.mp h
  · cases h
  obtain ⟨-, h⟩ | ⟨-, h⟩ := ite_eq_iff.mp h
  · exact absurd (loadPending_pending h) (by simp [hpending.1])
  obtain ⟨-, h⟩ | ⟨-, h⟩ := ite_eq_iff.mp h
  · exact absurd (loadUnenrolled_deviceId h) hpending.2
  · exact loadEnrolled_token h

/-! ### The record a run leaves in force -/

/-- Any event may answer a call. -/
def AnyEvent : Op → Event → Nvs → Prop := fun _ _ _ => True

theorem atomicWrite_toBlob (e : Event) (o : AtomicConfigStore.Op) (b : Store) :
    AtomicWrite o (e.toBlob o b) b := by
  cases e with
  | done => cases o <;> trivial
  | faulty reported effective =>
    cases o with
    | write key value =>
      cases effective with
      | true => exact Or.inr rfl
      | false => exact Or.inl rfl
    | read key => trivial
    | erase key => trivial
    | present key => trivial

/-- The record in force is the one of `s`, or `payload`. -/
def OldOrNew (s : Nvs) (payload : Bytes) (left : Nvs) : Prop :=
  activePayload left.blob = activePayload s.blob ∨ activePayload left.blob = some payload

theorem wp_commit (s : Nvs) (payload : Bytes) :
    wp device AnyEvent (OldOrNew s payload) (commit payload) (fun _ => OldOrNew s payload) s := by
  have hend : ∀ a b, CommitEnd s.blob payload a b →
      activePayload b = activePayload s.blob ∨ activePayload b = some payload := by
    intro a b h
    cases a with
    | none => exact Or.inl (activePayload_commitEnd h)
    | some c => exact activePayload_commitState h.2
  have hblob := wp_mono (fun b h => activePayload_commitState h) hend (commit_wp s.blob payload)
  have hwhole : wp device AnyEvent (fun b => OldOrNew s payload b ∧ True) (commit payload)
      (fun _ b => OldOrNew s payload b ∧ True) s :=
    wp_component (fun o e s _ _ => ⟨⟨e.toBlob o s.blob, FaultyWrite.of_atomicWrite (atomicWrite_toBlob e o s.blob),
      rfl, rfl⟩, trivial⟩) trivial hblob
  exact wp_mono (fun _ h => h.1) (fun _ _ h => h.1) hwhole

theorem OldOrNew.trans {payload : Bytes} {left left' : Nvs} (h : OldOrNew s payload left)
    (h' : OldOrNew left payload left') : OldOrNew s payload left' := by
  rcases h' with h' | h'
  · rcases h with h | h
    · exact Or.inl (h'.trans h)
    · exact Or.inr (h'.trans h)
  · exact Or.inr h'

/-- Calls that leave the record's store alone. -/
def LeavesBlob : Op → Prop
  | .blob (.write _ _) => False
  | .blob (.erase _) => False
  | _ => True

theorem blob_of_leavesBlob {o : Op} (h : LeavesBlob o) (e : Event) (s : Nvs) : (device.act o e s).1.blob = s.blob := by
  cases o with
  | blob o => cases o <;> first | rfl | exact h.elim
  | putNumber key value => simp only [device]; split_ifs <;> rfl
  | putBytes key value => simp only [device]; split_ifs <;> rfl
  | remove key => simp only [device]; split_ifs <;> rfl
  | getNumber key => rfl
  | getBytes key => rfl
  | isKey key => rfl

theorem wp_oldOrNew {α : Type} {p : NvsProg α} (hp : p.All LeavesBlob) {s : Nvs} {payload : Bytes} {left : Nvs}
    (h : OldOrNew s payload left) :
    wp device AnyEvent (OldOrNew s payload) p (fun _ => OldOrNew s payload) left := by
  refine wp_of_all (P := LeavesBlob) (fun o e left ho _ h => ?_) hp h
  unfold OldOrNew
  rw [blob_of_leavesBlob ho]
  exact h

/-- The calls of a re-enrollment: they write no number but zero, and neither of the floors of a reset. -/
def Clears : Op → Prop
  | .putNumber key value => value = 0 ∧ key ≠ .dataGen ∧ key ≠ .resetFloor
  | _ => True

/-- Its calls before the commit and after it. -/
def Prepares (o : Op) : Prop := Clears o ∧ LeavesBlob o

theorem all_writeChecked {key : NumberKey} {value : ℕ} (h : Prepares (.putNumber key value)) :
    (writeChecked key value).All Prepares :=
  Prog.All.bind ((Prog.all_op _).mpr h) fun written => by
    cases written with
    | false => trivial
    | true => exact Prog.All.bind ((Prog.all_op _).mpr ⟨trivial, trivial⟩) fun _ => trivial

theorem all_andThen {c : Bool} {p : NvsProg Bool} (h : p.All Prepares) : (andThen c p).All Prepares := by
  unfold andThen
  split_ifs
  · exact h
  · trivial

theorem all_setEnrollmentToken (frozen : Bool) (token : Bytes) : (setEnrollmentToken frozen token).All Prepares := by
  unfold setEnrollmentToken writeBytesChecked
  split_ifs
  · trivial
  · trivial
  · refine Prog.All.bind ((Prog.all_op _).mpr ⟨trivial, trivial⟩) fun written => ?_
    cases written with
    | false => trivial
    | true => exact Prog.All.bind ((Prog.all_op _).mpr ⟨trivial, trivial⟩) fun _ => trivial

theorem all_erasePreferenceChecked (key : BytesKey) : (erasePreferenceChecked key).All Prepares := by
  refine Prog.All.bind ((Prog.all_op _).mpr ⟨trivial, trivial⟩) fun present => ?_
  cases present with
  | false => trivial
  | true =>
    refine Prog.All.bind ((Prog.all_op _).mpr ⟨trivial, trivial⟩) fun removed => ?_
    cases removed with
    | false => trivial
    | true => exact Prog.All.bind ((Prog.all_op _).mpr ⟨trivial, trivial⟩) fun _ => trivial

theorem all_clearEnrollmentToken (frozen : Bool) : (clearEnrollmentToken frozen).All Prepares := by
  unfold clearEnrollmentToken
  split_ifs
  · trivial
  · exact all_erasePreferenceChecked _

theorem all_prepareReenrollment (frozen : Bool) (token : Bytes) :
    (prepareReenrollment frozen token).All Prepares := by
  have hwrite : ∀ (key : NumberKey), key ≠ .dataGen ∧ key ≠ .resetFloor → (writeChecked key 0).All Prepares :=
    fun key hkey => all_writeChecked ⟨⟨rfl, hkey⟩, trivial⟩
  refine (all_setEnrollmentToken frozen token).bind fun _ => ?_
  refine (all_andThen (hwrite _ (by decide))).bind fun _ => ?_
  refine (all_andThen (hwrite _ (by decide))).bind fun _ => ?_
  refine (all_andThen (hwrite _ (by decide))).bind fun _ => ?_
  refine (all_andThen (hwrite _ (by decide))).bind fun _ => ?_
  exact (all_andThen (hwrite _ (by decide))).bind fun _ => trivial

theorem all_loadActive : loadActive.All Prepares :=
  ⟨⟨trivial, trivial⟩, fun _ => ⟨⟨trivial, trivial⟩, fun _ => ⟨⟨trivial, trivial⟩, fun _ => trivial⟩⟩⟩

theorem all_committedRecord (payload : Bytes) : (committedRecord j payload).All Clears := by
  refine (all_component (fun _ => trivial) _).bind fun committed => ?_
  cases committed with
  | none => trivial
  | some committed => exact (all_component (fun _ => trivial) _).bind fun _ => trivial

/-- **A re-enrollment writes no number but zero.** -/
theorem all_beginReenrollment (frozen : Bool) (generation : UInt64) (token : Bytes) :
    (beginReenrollment j frozen generation token).All Clears := by
  have hclears : ∀ {α : Type} {p : NvsProg α}, p.All Prepares → p.All Clears := fun h => h.mono fun _ ho => ho.1
  unfold beginReenrollment
  split_ifs
  · trivial
  · trivial
  refine (hclears (all_prepareReenrollment frozen token)).bind fun prepared => ?_
  cases prepared with
  | false => trivial
  | true =>
    refine Prog.All.bind ?_ fun committed => ?_
    · unfold commitReenrollmentPending
      split_ifs
      · trivial
      · exact (all_committedRecord _).bind fun _ => trivial
    · cases committed with
      | false => trivial
      | true => exact (hclears (all_clearEnrollmentToken frozen)).bind fun _ => trivial

theorem wp_committedRecord {payload : Bytes} {left : Nvs} (h : OldOrNew s payload left) :
    wp device AnyEvent (OldOrNew s payload) (committedRecord j payload) (fun _ => OldOrNew s payload) left := by
  refine wp_bind'.mpr (wp_mono (fun _ => h.trans) (fun committed left' h' => ?_) (wp_commit left payload))
  cases committed with
  | none => exact h.trans h'
  | some committed =>
    exact wp_bind'.mpr (wp_oldOrNew (all_loadActive.mono fun _ ho => ho.2) (h.trans h'))

/-- **The old record or the pending one is in force** whenever the power is lost, and at the end. -/
theorem wp_beginReenrollment (frozen : Bool) (generation : UInt64) (token : Bytes) (s : Nvs) :
    wp device AnyEvent (OldOrNew s (pendingPayload j token (generation + 1)))
      (beginReenrollment j frozen generation token)
      (fun _ => OldOrNew s (pendingPayload j token (generation + 1))) s := by
  have hold : OldOrNew s (pendingPayload j token (generation + 1)) s := Or.inl rfl
  have hquiet : ∀ {α : Type} {p : NvsProg α}, p.All Prepares → p.All LeavesBlob := fun h => h.mono fun _ ho => ho.2
  unfold beginReenrollment
  split_ifs
  · exact hold
  · exact hold
  refine wp_bind'.mpr (wp_post (wp_oldOrNew (hquiet (all_prepareReenrollment frozen token)) hold)
    fun prepared left hleft => ?_)
  cases prepared with
  | false => exact hleft
  | true =>
    simp only [Bool.not_true, Bool.false_eq_true, if_false]
    refine wp_bind'.mpr (wp_post (Q := fun _ => OldOrNew s (pendingPayload j token (generation + 1))) ?_
      fun committed left' hleft' => ?_)
    · unfold commitReenrollmentPending
      split_ifs
      · exact hleft
      · exact wp_bind'.mpr (wp_committedRecord hleft)
    · cases committed with
      | false => exact hleft'
      | true => exact wp_bind'.mpr (wp_oldOrNew (hquiet (all_clearEnrollmentToken frozen)) hleft')

/-! ### The cursors a run leaves -/

/-- What the writes of a run did: one changed a cursor, and the pending record came into force. -/
structure Effects where
  cursorChanged : Bool := false
  switched : Bool := false
  deriving DecidableEq

/-- The write takes effect and changes a cursor. -/
def changesCursor (o : Op) (e : Event) (s : Nvs) : Bool :=
  match o with
  | .putNumber key value => e.effective && decide (key ∈ cursorKeys) && decide (cursor s key ≠ value)
  | _ => false

def watch (payload : Bytes) (o : Op) (e : Event) (s : Nvs) (effects : Effects) : Effects where
  cursorChanged := effects.cursorChanged || changesCursor o e s
  switched := activePayload (device.act o e s).1.blob = some payload

/-- What the writes of a re-enrollment do under the events. -/
def effects (j : NullableLibrary) (frozen : Bool) (generation : UInt64) (token : Bytes) (events : List Event)
    (s : Nvs) : Effects :=
  observed device (watch (pendingPayload j token (generation + 1)))
    (beginReenrollment j frozen generation token) events s {}

/-- What holds of a state a run reaches and of the effects up to there. -/
structure Watched (s : Nvs) (payload : Bytes) (left : Nvs × Effects) : Prop where
  floors : cursor left.1 .dataGen = cursor s .dataGen ∧ cursor left.1 .resetFloor = cursor s .resetFloor
  each : ∀ key ∈ cursorKeys, cursor left.1 key = 0 ∨ cursor left.1 key = cursor s key
  unchanged : left.2.cursorChanged = false → ∀ key ∈ cursorKeys, cursor left.1 key = cursor s key
  changed : left.2.cursorChanged = true → ∃ key ∈ cursorKeys, cursor left.1 key ≠ cursor s key
  switched : left.2.switched = true ↔ activePayload left.1.blob = some payload

theorem cursor_update (s : Nvs) (key key' : NumberKey) (value : ℕ) :
    cursor { s with number := Function.update s.number key (some value) } key' =
      if key' = key then value else cursor s key' := by
  simp only [cursor, Function.update_apply]
  split_ifs <;> rfl

/-- A call that writes no number. -/
theorem cursor_act {o : Op} (h : ∀ key value, o ≠ .putNumber key value) (e : Event) (s : Nvs) (key : NumberKey) :
    cursor (device.act o e s).1 key = cursor s key := by
  cases o with
  | putNumber key value => exact absurd rfl (h key value)
  | blob o => rfl
  | putBytes key value => simp only [device]; split_ifs <;> rfl
  | remove key => simp only [device]; split_ifs <;> rfl
  | getNumber key => rfl
  | getBytes key => rfl
  | isKey key => rfl

/-- A call that changes no cursor. -/
theorem Watched.of_cursors {payload : Bytes} {left : Nvs × Effects} (h : Watched s payload left) {o : Op} {e : Event}
    (hsame : ∀ key, cursor (device.act o e left.1).1 key = cursor left.1 key)
    (hchanges : changesCursor o e left.1 = false) :
    Watched s payload ((observe device (watch payload)).act o e left).1 where
  floors := by simpa only [observe, hsame] using h.floors
  each := by simpa only [observe, hsame] using h.each
  unchanged := by simpa only [observe, watch, hsame, hchanges, Bool.or_false] using h.unchanged
  changed := by simpa only [observe, watch, hsame, hchanges, Bool.or_false] using h.changed
  switched := by simp only [observe, watch, decide_eq_true_eq]

/-- A cursor is cleared. -/
theorem Watched.cleared {payload : Bytes} {left : Nvs × Effects} (h : Watched s payload left) {key : NumberKey}
    (hkey : key ≠ .dataGen ∧ key ≠ .resetFloor) {e : Event} (he : e.effective = true) :
    Watched s payload ((observe device (watch payload)).act (.putNumber key 0) e left).1 := by
  have hact : (device.act (.putNumber key 0) e left.1).1 =
      { left.1 with number := Function.update left.1.number key (some 0) } := by simp [device, he]
  have hchanges : changesCursor (.putNumber key 0) e left.1 =
      (decide (key ∈ cursorKeys) && decide (cursor left.1 key ≠ 0)) := by simp [changesCursor, he]
  constructor
  case floors =>
    simp only [observe, hact, cursor_update, if_neg hkey.1.symm, if_neg hkey.2.symm]
    exact h.floors
  case each =>
    intro k hk
    simp only [observe, hact, cursor_update]
    split_ifs
    · exact Or.inl rfl
    · exact h.each k hk
  case unchanged =>
    simp only [observe, watch, hact, hchanges, cursor_update, Bool.or_eq_false_iff, Bool.and_eq_false_imp,
      decide_eq_true_eq, decide_eq_false_iff_not, not_not]
    intro hg k hk
    split_ifs with hkk
    · subst hkk
      rw [← h.unchanged hg.1 k hk, hg.2 hk]
    · exact h.unchanged hg.1 k hk
  case changed =>
    simp only [observe, watch, hact, hchanges, cursor_update, Bool.or_eq_true, Bool.and_eq_true, decide_eq_true_eq]
    rintro (hg | ⟨hk, hne⟩)
    · -- a cursor that was changed is zero, and stays so
      obtain ⟨k, hk, hne⟩ := h.changed hg
      have hzero : cursor left.1 k = 0 := (h.each k hk).resolve_right hne
      refine ⟨k, hk, ?_⟩
      split_ifs
      · rwa [hzero] at hne
      · exact hne
    · refine ⟨key, hk, ?_⟩
      rw [if_pos rfl]
      rcases h.each key hk with hzero | hold
      · exact absurd hzero hne
      · rw [← hold]
        exact hne.symm
  case switched => simp only [observe, watch, decide_eq_true_eq]

theorem Watched.act {payload : Bytes} {left : Nvs × Effects} (h : Watched s payload left) {o : Op}
    (ho : Clears o) (e : Event) : Watched s payload ((observe device (watch payload)).act o e left).1 := by
  by_cases hput : ∃ key value, o = .putNumber key value
  · obtain ⟨key, value, rfl⟩ := hput
    obtain ⟨rfl, hkey⟩ := ho
    cases he : e.effective with
    | true => exact h.cleared hkey he
    | false => exact h.of_cursors (fun k => by simp [device, he]) (by simp [changesCursor, he])
  · have hput' : ∀ key value, o ≠ .putNumber key value := fun key value heq => hput ⟨key, value, heq⟩
    refine h.of_cursors (fun k => cursor_act hput' e left.1 k) ?_
    cases o <;> first | rfl | exact absurd rfl (hput' _ _)

/-- **What a run leaves**, and the effects that explain it. -/
theorem watched_run {token : Bytes} {generation : UInt64}
    (hstart : activePayload s.blob ≠ some (pendingPayload j token (generation + 1))) (frozen : Bool)
    (events : List Event) :
    Watched s (pendingPayload j token (generation + 1))
      ((run device (beginReenrollment j frozen generation token) events s).1,
        effects j frozen generation token events s) := by
  have hfirst : Watched s (pendingPayload j token (generation + 1)) (s, {}) :=
    { floors := ⟨rfl, rfl⟩, each := fun _ _ => Or.inr rfl, unchanged := fun _ _ _ => rfl,
      changed := fun h => (by cases h), switched := by simpa using hstart }
  have hwp := wp_of_all (D := observe device (watch (pendingPayload j token (generation + 1))))
    (A := fun _ _ _ => True) (I := Watched s (pendingPayload j token (generation + 1)))
    (fun o e left ho _ h => h.act ho e) (all_beginReenrollment (j := j) frozen generation token) hfirst
  have halong : Along (observe device (watch (pendingPayload j token (generation + 1)))) (fun _ _ _ => True)
      (beginReenrollment j frozen generation token) events (s, {}) := along_of_forall _ _ fun _ _ _ _ => trivial
  have hout := wp_run hwp halong
  rw [run_observe] at hout
  generalize run device (beginReenrollment j frozen generation token) events s = out at hout ⊢
  obtain ⟨left, result⟩ := out
  cases result with
  | none => exact hout
  | some result => exact hout

/-! ### All or nothing -/

/-- The boot publishes the old identity and its cursors are as they were, or it publishes the pending
re-enrollment. -/
def AllOrNothing (j : NullableLibrary) (s : Nvs) (r : EnrollmentRecord) (token : Bytes) (generation : UInt64)
    (left : Nvs) : Prop :=
  ((boot j left).1 = some r.published ∧ ∀ key ∈ cursorKeys, cursor (boot j left).2 key = cursor s key) ∨
    (boot j left).1 = some (pendingRecord token (generation + 1)).published

theorem Enrolled.token (h : Enrolled j s r) : r.pendingReenrollmentToken = [] := by
  obtain ⟨payload, -, hrecord⟩ := Option.bind_eq_some_iff.mp h.record
  exact token_of_enrolled hrecord h.enrolled

/-- The pending record publishes no identity. -/
theorem Enrolled.published_ne (h : Enrolled j s r) (token : Bytes) (generation : UInt64) :
    r.published ≠ (pendingRecord token generation).published := by
  intro heq
  have henrolled := h.enrolled
  rw [heq] at henrolled
  cases henrolled

/-- With the old record in force, it is all or nothing exactly if the cursors are as they were. -/
theorem allOrNothing_old (h : Enrolled j s r) {token : Bytes} {generation : UInt64} {left : Nvs}
    (hrecord : activePayload left.blob = activePayload s.blob)
    (hfloors : cursor left .dataGen = cursor s .dataGen ∧ cursor left .resetFloor = cursor s .resetFloor) :
    AllOrNothing j s r token generation left ↔ ∀ key ∈ cursorKeys, cursor left key = cursor s key := by
  have hload : (activePayload left.blob).bind (loadEnrollmentRecord j) = some r := by
    rw [hrecord]
    exact h.record
  obtain ⟨hreached, hnot⟩ := boot_identity hload h.token
  constructor
  · rintro (⟨hboot, hcursors⟩ | hboot)
    · by_cases hr : Reached left r.activation
      · obtain ⟨bytes, hb⟩ := hreached hr
        rw [hb] at hcursors
        exact hcursors
      · rw [hnot hr] at hboot
        cases hboot
    · by_cases hr : Reached left r.activation
      · obtain ⟨bytes, hb⟩ := hreached hr
        rw [hb] at hboot
        exact absurd (Option.some.inj hboot) (h.published_ne token (generation + 1))
      · rw [hnot hr] at hboot
        cases hboot
  · intro hcursors
    have hr : Reached left r.activation := by
      unfold Reached
      rw [hfloors.1, hfloors.2, hcursors .serverAck (by decide), hcursors .serverMax (by decide),
        hcursors .removeSeq (by decide)]
      exact h.reached
    obtain ⟨bytes, hb⟩ := hreached hr
    exact Or.inl ⟨by rw [hb], by rw [hb]; exact hcursors⟩

/-- **Starting a re-enrollment is all or nothing exactly if** no write changed a cursor, or the pending
record came into force. -/
theorem begin_all_or_nothing (hj : j.Lawful) (h : Enrolled j s r) {token : Bytes} (htext : 0 ∉ token)
    (frozen : Bool) (generation : UInt64) (events : List Event) :
    AllOrNothing j s r token generation (run device (beginReenrollment j frozen generation token) events s).1 ↔
      ((effects j frozen generation token events s).cursorChanged = false ∨
        (effects j frozen generation token events s).switched = true) := by
  by_cases hadmitted : frozen = false ∧ TokenFits token ∧ generation + 1 ≠ 0
  · obtain ⟨rfl, htoken, hgeneration⟩ := hadmitted
    have hpayload := loadEnrollmentRecord_pendingPayload hj htoken hgeneration
    have hstart : activePayload s.blob ≠ some (pendingPayload j token (generation + 1)) := by
      intro heq
      have hrecord := h.record
      rw [heq, Option.bind_some, hpayload, Option.some.injEq] at hrecord
      subst hrecord
      exact h.published_ne token (generation + 1) rfl
    have hwatched := watched_run hstart false events
    have hforce : OldOrNew s (pendingPayload j token (generation + 1))
        (run device (beginReenrollment j false generation token) events s).1 := by
      have halong : Along device AnyEvent (beginReenrollment j false generation token) events s :=
        along_of_forall _ _ fun _ _ _ _ => trivial
      have hout := wp_run (wp_beginReenrollment (j := j) false generation token s) halong
      generalize run device (beginReenrollment j false generation token) events s = out at hout ⊢
      obtain ⟨left, result⟩ := out
      cases result with
      | none => exact hout
      | some result => exact hout
    generalize (run device (beginReenrollment j false generation token) events s).1 = left at hwatched hforce ⊢
    rcases hforce with hold | hnew
    · have hnot : (effects j false generation token events s).switched = false := by
        rw [Bool.eq_false_iff]
        exact fun hs => hstart (hold.symm.trans (hwatched.switched.mp hs))
      rw [allOrNothing_old h hold hwatched.floors, hnot]
      constructor
      · intro hcursors
        refine Or.inl (Bool.eq_false_iff.mpr fun hchanged => ?_)
        obtain ⟨key, hkey, hne⟩ := hwatched.changed hchanged
        exact hne (hcursors key hkey)
      · rintro (hunchanged | hswitched)
        · exact hwatched.unchanged hunchanged
        · cases hswitched
    · exact iff_of_true (Or.inr (boot_pending hj htoken hgeneration hnew)) (Or.inr (hwatched.switched.mpr hnew))
  · -- the request is refused and nothing is written
    have hrefused : beginReenrollment j frozen generation token = pure false := by
      unfold beginReenrollment
      split_ifs with hguard hmax
      · rfl
      · rfl
      · simp only [Bool.or_eq_true, decide_eq_true_eq, not_or, Bool.not_eq_true, Nat.not_lt] at hguard
        refine absurd ⟨hguard.1.1, ⟨hguard.1.2, hguard.2, htext⟩, fun hzero => hmax ?_⟩ hadmitted
        have hlt := generation.toNat_lt
        have hsum := congrArg UInt64.toNat hzero
        rw [UInt64.toNat_add] at hsum
        simp at hsum
        omega
    have heffects : (effects j frozen generation token events s).cursorChanged = false := by
      rw [effects, hrefused]
      rfl
    rw [hrefused]
    exact iff_of_true ((allOrNothing_old h rfl ⟨rfl, rfl⟩).mpr fun _ _ => rfl) (Or.inl heffects)

/-! ### An activation-bound identity that is lost -/

def deviceFirst : Bytes := ascii "11111111-1111-4111-8111-111111111111"

def tokenFirst : Bytes := List.replicate 32 97

/-- The record of an identity bound to an activation with the floor 5. -/
def documentFirst : Document :=
  [(ascii "record_schema_version", .scalar (.unsigned 2)),
    (ascii "enrolled", .scalar (.boolean true)),
    (ascii "activation_pending", .scalar (.boolean false)),
    (ascii "activation_policy_bound", .scalar (.boolean true)),
    (ascii "activation_operation_id", .scalar (.text deviceFirst)),
    (ascii "device_id", .scalar (.text deviceFirst)),
    (ascii "secret_hex", .scalar (.text (List.replicate 64 48))),
    (ascii "ota_public_key", .scalar (.text (ascii "key"))),
    (ascii "reenrollment_generation", .scalar (.unsigned 1)),
    (ascii "source_card_device_id", .scalar (.text (ascii "card"))),
    (ascii "source_card_generation", .scalar (.unsigned 1)),
    (ascii "source_data_generation", .scalar (.unsigned 1)),
    (ascii "target_data_generation", .scalar (.unsigned 2)),
    (ascii "reset_boundary", .scalar (.unsigned 5)),
    (ascii "sequence_floor", .scalar (.unsigned 5))]

def recordFirst : EnrollmentRecord where
  deviceId := deviceFirst
  enrollmentSecret := List.replicate 32 0
  otaPublicKey := ascii "key"
  reenrollmentGeneration := 1
  activation := {
    policyBound := true
    operationId := deviceFirst
    deviceId := deviceFirst
    sourceCardDeviceId := ascii "card"
    sourceCardGeneration := 1
    sourceDataGeneration := 1
    targetDataGeneration := 2
    resetBoundary := 5
    sequenceFloor := 5 }

/-- Its state, with the cursors at the floor. -/
def enrolledFirst : Nvs where
  blob
    | .slotA => some (encodeRecord 1 (textNullable.serialize documentFirst))
    | .slotB => none
    | .active => some (encodeMarker .a 1)
  number
    | .dataGen => some 2
    | .serverCfg => some 1
    | _ => some 5

theorem enrolledFirst_runs :
    (activePayload enrolledFirst.blob).bind (loadEnrollmentRecord textNullable) = some recordFirst ∧
    (boot textNullable (run device (beginReenrollment textNullable false 1 tokenFirst)
      (List.replicate 3 .done) enrolledFirst).1).1 = none ∧
    (effects textNullable false 1 tokenFirst (List.replicate 40 .done) enrolledFirst).switched = true := by
  decide +kernel

theorem enrolled_first : Enrolled textNullable enrolledFirst recordFirst where
  record := enrolledFirst_runs.1
  enrolled := rfl
  reached := fun _ _ => by decide

/-- The power is lost once the first cursor is cleared, and no boot publishes an identity any more. -/
theorem begin_loses_identity :
    Enrolled textNullable enrolledFirst recordFirst ∧
      ¬ AllOrNothing textNullable enrolledFirst recordFirst tokenFirst 1
        (run device (beginReenrollment textNullable false 1 tokenFirst) (List.replicate 3 .done) enrolledFirst).1 := by
  refine ⟨enrolled_first, ?_⟩
  simp only [AllOrNothing, enrolledFirst_runs.2.1, reduceCtorEq, false_and, or_self, not_false_iff]

/-- The same request, undisturbed. -/
theorem begin_all_or_nothing_first :
    AllOrNothing textNullable enrolledFirst recordFirst tokenFirst 1
      (run device (beginReenrollment textNullable false 1 tokenFirst) (List.replicate 40 .done) enrolledFirst).1 :=
  (begin_all_or_nothing textNullable_lawful enrolled_first (by decide) false 1 _).mpr (Or.inr enrolledFirst_runs.2.2)

end PowerMonitor.Config.Reenrollment
