import PowerMonitor.Config.CommitAtomic
import PowerMonitor.Reset.Operation
import PowerMonitor.Reset.RoundTrip

/-! # The store of reset records

`saveAndVerify` admits a record only as the first one, as the one already stored or as a valid update
of it, commits its stored form and reads it back. Whatever its faulty writes leave, a save that
reports success has stored the record, and one that reports anything else has changed nothing
(`saveAndVerify_wp`). So the records accepted one after another form a chain, and obey the law of the
operations (`accepted_operationLaw`). -/

namespace PowerMonitor.Reset.RecordStore

open PowerMonitor.Lib.Binary PowerMonitor.Lib.Program PowerMonitor.Lib.Steady
open PowerMonitor.Config.AtomicConfigStore PowerMonitor.Config.CommitAtomic
open PowerMonitor.Reset.Policy PowerMonitor.Reset.Codec PowerMonitor.Reset.Operation PowerMonitor.Reset.RoundTrip

inductive DataResetStoreResult
  | loaded | savedAndVerified | notFound | invalidRecord | invalidTransition | loadFailed | parseFailed
  | serializeFailed | commitFailed | readbackFailed | identityMismatch | backendUnavailable
  deriving DecidableEq, Repr

structure DataResetStoreMetadata where
  persistenceGeneration : ℕ := 0
  recoveredFallback : Bool := false
  deriving DecidableEq, Repr

/-- What a save returns. -/
abbrev Saved := DataResetStoreResult × DataResetStoreMetadata

/-- The commit of an admitted record, and its reading back. -/
def commitRecord (record : Record) (payload : Bytes) : BlobProg Saved := do
  let committed ← commit payload
  match committed with
  | none => return (.commitFailed, {})
  | some _ =>
    let loaded ← loadActive
    match loaded with
    | none => return (.readbackFailed, {})
    | some loaded =>
      match decodeDataResetRecord loaded.payload with
      | none => return (.readbackFailed, {})
      | some readback =>
        if !recordsEqual record readback then return (.identityMismatch, {})
        else return (.savedAndVerified, ⟨loaded.generation, loaded.recoveredFallback⟩)

def saveAndVerify (record : Record) : BlobProg Saved :=
  let payload := encodeDataResetRecord record
  if !validRecord record then return (.invalidRecord, {})
  else if payload = [] then return (.serializeFailed, {})
  else if !((decodeDataResetRecord payload).any fun canonical => recordsEqual canonical record) then
    return (.serializeFailed, {})
  else do
    let present ← anyDataPresent
    if present then
      let currentPayload ← loadActive
      match currentPayload with
      | none => return (.loadFailed, {})
      | some currentPayload =>
        match decodeDataResetRecord currentPayload.payload with
        | none => return (.parseFailed, {})
        | some current =>
          if recordsEqual current record then
            return (.savedAndVerified, ⟨currentPayload.generation, currentPayload.recoveredFallback⟩)
          else if !validRecordUpdate current record then return (.invalidTransition, {})
          else commitRecord record payload
    else if record.state ≠ .preparing ∨ record.checkpoint ≠ .none then
      return (.invalidTransition, {})
    else commitRecord record payload

/-! ### One save -/

/-- The record in force. -/
def storedRecord (s : Store) : Option Record :=
  (activePayload s).bind decodeDataResetRecord

/-- Whether a record is admitted after what is in force. -/
def Admits (s : Store) (record : Record) : Prop :=
  validRecord record = true ∧
    ((activePayload s = none ∧ record.state = .preparing ∧ record.checkpoint = .none) ∨
      ∃ current, storedRecord s = some current ∧ Follows current record)

/-- What a save of the record leaves. -/
def SaveEnd (s : Store) (record : Record) (saved : Saved)
    (s' : Store) : Prop :=
  if saved.1 = .savedAndVerified then Admits s record ∧ storedRecord s' = some record
  else activePayload s' = activePayload s

theorem SaveEnd.accepted {s s' : Store} {record : Record} {metadata : DataResetStoreMetadata}
    (hadmits : Admits s record) (hstored : storedRecord s' = some record) :
    SaveEnd s record (.savedAndVerified, metadata) s' := by
  rw [SaveEnd, if_pos rfl]
  exact ⟨hadmits, hstored⟩

theorem wp_anyDataPresent {A : Op → Event → Store → Prop}
    {s : Store} {Q : Bool → Store → Prop}
    (h : Q ((s .slotA).isSome || (s .slotB).isSome || (s .active).isSome) s) :
    wp device A (fun _ => True) anyDataPresent Q s :=
  ⟨trivial, fun _ _ => ⟨trivial, fun _ _ => ⟨trivial, fun _ _ => h⟩⟩⟩

/-- Without any key there is nothing in force. -/
theorem activePayload_of_absent {s : Store}
    (h : ((s .slotA).isSome || (s .slotB).isSome || (s .active).isSome) = false) :
    activePayload s = none := by
  simp only [Bool.or_eq_false_iff, Option.isSome_eq_false_iff, Option.isNone_iff_eq_none] at h
  simp [activePayload, loadActiveOf, slotOf, markerOf, h, slotKey, decodeSlot, selectActive, markedSlot,
    newestValid]

/-- **The commit of an admitted record** stores it, or changes nothing. -/
theorem commitRecord_wp {s : Store} {record : Record} {payload : Bytes}
    (hdecode : decodeDataResetRecord payload = some record) (hadmits : Admits s record) :
    wp device FaultyWrite (fun _ => True) (commitRecord record payload) (SaveEnd s record) s := by
  refine wp_bind'.mpr (wp_mono (fun _ _ => trivial) (fun r s' h => ?_) (commit_wp s payload))
  cases r with
  | none => exact activePayload_commitEnd h
  | some c =>
    refine wp_bind'.mpr (wp_loadActive trivial ?_)
    rw [h.1]
    simp only [hdecode, recordsEqual, decide_true, Bool.not_true, Bool.false_eq_true, if_false, wp_pure]
    refine SaveEnd.accepted hadmits ?_
    simp [storedRecord, activePayload, h.1, hdecode]

/-- **A save** stores an admitted record, or changes nothing. -/
theorem saveAndVerify_wp (s : Store) (record : Record) :
    wp device FaultyWrite (fun _ => True) (saveAndVerify record) (SaveEnd s record) s := by
  have hsame : ∀ result, result ≠ DataResetStoreResult.savedAndVerified →
      wp device FaultyWrite (fun _ => True) (pure (result, {})) (SaveEnd s record) s :=
    fun result h => by
    rw [wp_pure, SaveEnd, if_neg h]
  unfold saveAndVerify
  simp only [wp_ite]
  split
  · exact hsame _ (by decide)
  rename_i hvalid
  split
  · exact hsame _ (by decide)
  split
  · exact hsame _ (by decide)
  rename_i hcanonical
  have hvalid : validRecord record = true := by simpa using hvalid
  have hdecode : decodeDataResetRecord (encodeDataResetRecord record) = some record := by
    cases hd : decodeDataResetRecord (encodeDataResetRecord record) with
    | none => simp [hd] at hcanonical
    | some canonical => simpa [hd, recordsEqual] using hcanonical
  refine wp_bind'.mpr (wp_anyDataPresent ?_)
  split_ifs with hpresent hfirst
  · -- a record is stored already
    refine wp_bind'.mpr (wp_loadActive trivial ?_)
    cases hload : loadActiveOf s with
    | none => exact hsame _ (by decide)
    | some currentPayload =>
      simp only
      cases hcurrent : decodeDataResetRecord currentPayload.payload with
      | none => exact hsame _ (by decide)
      | some current =>
        have hstored : storedRecord s = some current := by
          simp [storedRecord, activePayload, hload, hcurrent]
        simp only
        split_ifs with heq hupdate
        · have heq : current = record := by simpa [recordsEqual] using heq
          subst heq
          exact SaveEnd.accepted ⟨hvalid, Or.inr ⟨current, hstored, Or.inl rfl⟩⟩ hstored
        · exact hsame _ (by decide)
        · exact commitRecord_wp hdecode
            ⟨hvalid, Or.inr ⟨current, hstored, Or.inr (by simpa using hupdate)⟩⟩
  · exact hsame _ (by decide)
  · have hfirst : record.state = .preparing ∧ record.checkpoint = .none := by
      simpa [not_or] using hfirst
    exact commitRecord_wp hdecode
      ⟨hvalid, Or.inl ⟨activePayload_of_absent (by simpa using hpresent), hfirst⟩⟩

/-! ### Runs -/

/-- The records that saves from an empty store have accepted, oldest first, and the store they leave:
any record may be proposed at any time, and any write may be faulty. -/
inductive Accepted : List Record → Store → Prop
  | start : Accepted [] (fun _ => none)
  | save {rs : List Record} {s : Store} (h : Accepted rs s) (record : Record)
      (events left : List Event) (saved : Saved)
      (hfaults : Along device FaultyWrite (saveAndVerify record) events s)
      (hrun : (run device (saveAndVerify record) events s).2 = some (saved, left)) :
      Accepted (if saved.1 = .savedAndVerified then rs ++ [record] else rs)
        (run device (saveAndVerify record) events s).1

/-- The invariant of a run: the last accepted record is in force. -/
theorem Accepted.stored {rs : List Record} {s : Store} (h : Accepted rs s) :
    StoredSequence rs ∧ ((rs = [] ∧ activePayload s = none) ∨
      ∃ current, rs.getLast? = some current ∧ storedRecord s = some current) := by
  induction h with
  | start => exact ⟨StoredSequence.nil, Or.inl ⟨rfl, rfl⟩⟩
  | @save rs s h record events left saved hfaults hrun ih =>
    have hend := (wp_run (saveAndVerify_wp s record) hfaults).of_result hrun
    unfold SaveEnd at hend
    obtain ⟨hseq, hlast⟩ := ih
    split_ifs with hsaved
    · rw [if_pos hsaved] at hend
      obtain ⟨⟨hvalid, hadmits⟩, hstored⟩ := hend
      refine ⟨hseq.append hvalid ?_, Or.inr ⟨record, by simp, hstored⟩⟩
      rcases hadmits with ⟨hnone, hfirst⟩ | ⟨current, hcurrent, hfollows⟩
      · rcases hlast with ⟨hrs, -⟩ | ⟨current, -, hcurrent⟩
        · exact Or.inl ⟨hrs, hfirst⟩
        · simp [storedRecord, hnone] at hcurrent
      · rcases hlast with ⟨-, hnone⟩ | ⟨c, hc, hcs⟩
        · simp [storedRecord, hnone] at hcurrent
        · rw [hcs] at hcurrent
          obtain rfl := Option.some.inj hcurrent
          exact Or.inr ⟨c, hc, hfollows⟩
    · rw [if_neg hsaved] at hend
      refine ⟨hseq, ?_⟩
      unfold storedRecord at hlast ⊢
      rwa [hend]

/-- **The records accepted from an empty store obey the law of the operations.** -/
theorem accepted_operationLaw {rs : List Record} {s : Store}
    (h : Accepted rs s) : OperationLaw rs := h.stored.1.operationLaw

/-- A reset that has been asked for. -/
def asked : Record where
  state := .preparing
  prepare := {
    protocol := protocolVersion
    operationId := ascii "00000000-0000-0000-0000-000000000001"
    deviceId := ascii "00000000-0000-0000-0000-000000000002"
    targetGeneration := 1
    resetTimestamp := ascii "2026-01-01T00:00:00Z"
    planRevision := 1
    planDigest := List.replicate 64 48
    categories := [measurementHistoryCategory]
    expectedFirmwareVersion := ascii "1.0.0" }
  pause := { startedUtcMs := 1 }

/-- The same reset, cancelled. -/
def withdrawn : Record :=
  { asked with state := .cancelled, pause := { startedUtcMs := 1, endedUtcMs := 2, evidenced := true } }

/-! ### Saves that nothing disturbs -/

theorem steady_anyDataPresent (s : Store) : steady device .done anyDataPresent s =
    ((s .slotA).isSome || (s .slotB).isSome || (s .active).isSome, s) := rfl

theorem length_encode_le {record : Record} (hvalid : validRecord record = true) :
    (encodeDataResetRecord record).length ≤ maximumPayloadSize := by
  have hlength := length_encode hvalid
  have htexts := (storable_of_valid hvalid).textBytes_le
  unfold maximumPayloadSize
  omega

theorem steady_commitRecord {s : Store} {record : Record} {generation : ℕ} (hvalid : validRecord record = true)
    (hgeneration : max (generationOf (slotOf s .a)) (generationOf (slotOf s .b)) + 1 = generation)
    (h64 : generation < 2 ^ 64) :
    steady device .done (commitRecord record (encodeDataResetRecord record)) s =
      ((.savedAndVerified, ⟨generation, false⟩),
        committed s (commitTarget (loadActiveOf s)) generation (encodeDataResetRecord record)) := by
  obtain ⟨hne, hdecode⟩ := decode_encode hvalid
  have hlength := length_encode_le hvalid
  rw [commitRecord, steady_bind, steady_commit hne hlength hgeneration h64]
  dsimp only
  rw [steady_bind, steady_loadActive, loadActiveOf_committed (by omega) h64 hlength]
  dsimp only
  rw [hdecode]
  dsimp only
  rw [if_neg (by simp [recordsEqual]), steady_pure]

/-- The first save. -/
theorem steady_saveFirst {record : Record} (hvalid : validRecord record = true)
    (hfirst : record.state = .preparing ∧ record.checkpoint = .none) :
    steady device .done (saveAndVerify record) (fun _ => none) = ((.savedAndVerified, ⟨1, false⟩),
      committed (fun _ => none) .a 1 (encodeDataResetRecord record)) := by
  obtain ⟨hne, hdecode⟩ := decode_encode hvalid
  unfold saveAndVerify
  rw [if_neg (by simp [hvalid]), if_neg hne, if_neg (by simp [hdecode, recordsEqual]), steady_bind, steady_anyDataPresent]
  dsimp only
  rw [if_neg (by simp), if_neg (by simp [hfirst])]
  exact steady_commitRecord hvalid rfl (by decide)

/-- The save after it. -/
theorem steady_saveSecond {current record : Record} (hcurrent : validRecord current = true)
    (hvalid : validRecord record = true) (hne : current ≠ record) (hupdate : validRecordUpdate current record = true) :
    (steady device .done (saveAndVerify record)
      (committed (fun _ => none) .a 1 (encodeDataResetRecord current))).1.1 = .savedAndVerified := by
  obtain ⟨hnonempty, hdecode⟩ := decode_encode hvalid
  have hlength := length_encode_le hcurrent
  have hother : slotOf (committed (fun _ => none) .a 1 (encodeDataResetRecord current)) .b = none := by
    simp [slotOf, committed, slotKey, decodeSlot]
  have hgeneration : max (generationOf (slotOf (committed (fun _ => none) .a 1 (encodeDataResetRecord current)) .a))
      (generationOf (slotOf (committed (fun _ => none) .a 1 (encodeDataResetRecord current)) .b)) + 1 = 2 := by
    rw [slotOf_committed one_ne_zero (by decide) hlength, hother]
    rfl
  unfold saveAndVerify
  rw [if_neg (by simp [hvalid]), if_neg hnonempty, if_neg (by simp [hdecode, recordsEqual]), steady_bind,
    steady_anyDataPresent]
  dsimp only
  rw [if_pos (by simp [committed]), steady_bind, steady_loadActive,
    loadActiveOf_committed one_ne_zero (by decide) hlength]
  dsimp only
  rw [(decode_encode hcurrent).2]
  dsimp only
  rw [if_neg (by simp [recordsEqual, hne]), if_neg (by simp [hupdate]),
    steady_commitRecord hvalid hgeneration (by decide)]

theorem Accepted.accept {rs : List Record} {s : Store} (h : Accepted rs s) {record : Record}
    (hsaved : (steady device .done (saveAndVerify record) s).1.1 = .savedAndVerified) :
    Accepted (rs ++ [record]) (steady device .done (saveAndVerify record) s).2 := by
  have hrun := run_calls (D := device) (e := .done) (saveAndVerify record) [] s
  have hfaults : Along device FaultyWrite (saveAndVerify record)
      (List.replicate (calls device .done (saveAndVerify record) s) .done ++ []) s :=
    along_of_forall _ _ fun e he o s => by
      rw [List.append_nil] at he
      rw [List.eq_of_mem_replicate he]
      exact faultyWrite_done o s
  have := h.save record _ _ _ hfaults (congrArg Prod.snd hrun)
  rwa [if_pos hsaved, hrun] at this

/-- A reset is asked for, and cancelled. -/
theorem asked_withdrawn_accepted : ∃ s, Accepted [asked, withdrawn] s := by
  have hvalid : (validRecord asked = true ∧ validRecord withdrawn = true) ∧
      validRecordUpdate asked withdrawn = true := by decide +kernel
  obtain ⟨⟨hasked, hwithdrawn⟩, hupdate⟩ := hvalid
  have hfirst := steady_saveFirst hasked ⟨rfl, rfl⟩
  have hstored : Accepted [asked] (committed (fun _ => none) .a 1 (encodeDataResetRecord asked)) := by
    have h := Accepted.start.accept (congrArg (fun r => r.1.1) hfirst)
    rwa [hfirst] at h
  have hsecond := steady_saveSecond hasked hwithdrawn (by decide) hupdate
  exact ⟨_, hstored.accept hsecond⟩

theorem asked_withdrawn_law : ∃ s, Accepted [asked, withdrawn] s ∧ OperationLaw [asked, withdrawn] := by
  obtain ⟨s, h⟩ := asked_withdrawn_accepted
  exact ⟨s, h, accepted_operationLaw h⟩

end PowerMonitor.Reset.RecordStore
