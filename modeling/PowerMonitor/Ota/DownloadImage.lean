import PowerMonitor.Ota.Download
import PowerMonitor.Security.ConstantTime

/-! # Updates: the image that is selected

However the network cuts an image and wherever its download ends, the slot, the digest and the marker's search have seen
the same bytes, the first that were sent. So nothing but the manifest's image is ever selected for the next boot, and
the ledger tells of no more than there is.

* `Transfer.Inv`: what holds between two passes.
* `inv_look`, `inv_run`: every pass keeps it.
* `ended_image`: **only the manifest's image is selected** for the next boot.
* `failed_closed`: a download that fails leaves no update open.
* `ledger_truthful`: what the ledger tells, at any time. -/

namespace PowerMonitor.Ota.Download

open PowerMonitor.Lib.Binary PowerMonitor.Security.Crypto PowerMonitor.Security.ConstantTime
open PowerMonitor.Ota.ManifestV2 PowerMonitor.Ota.ProtocolMarker PowerMonitor.Ota.OtaService

variable {j : Job} {t : Transfer} {l : Look} {stream image data error hashed : Bytes} {ledger : List Entry}

/-! ### What holds between two passes -/

/-- The image of the manifest, the first bytes that were sent. -/
structure Complete (j : Job) (stream image : Bytes) : Prop where
  sent : image <+: stream
  length : image.length = j.manifest.sizeBytes.toNat
  valid : validateImageMetadata j.format j.manifest (image.take j.format.metadataBytes) = .ok ()
  digest : constantTimeEqual (sha256Hex j.primitives image) j.manifest.sha256 = true
  marker : (after image).protocolSeen = true

/-- The stages that tell of bytes in the slot. -/
def Stage.tellsWritten : Stage → Bool
  | .imageMetadataReceived | .imageMetadataValidated | .updateBeginCompleted => false
  | _ => true

/-- The stages that tell of an image that was checked. -/
def Stage.tellsChecked : Stage → Bool
  | .hashVerified | .protocolMarkerVerified | .updateEndBeginning | .updateEndCompleted => true
  | _ => false

/-- The ledger does not tell of more than there is. -/
structure Told (j : Job) (stream : Bytes) (ledger : List Entry) (hashed : Bytes) : Prop where
  sent : hashed <+: stream
  written : ∀ e ∈ ledger, e.stage.tellsWritten = true → e.bytesReceived.toNat ≤ hashed.length
  checked : ∀ e ∈ ledger, e.stage.tellsChecked = true → Complete j stream hashed

/-- Before the update begins. -/
structure Reading (j : Job) (stream : Bytes) (t : Transfer) : Prop where
  sent : t.metadata ++ t.rest = stream
  updateOpen : t.updateOpen = false
  update : t.update = .closed
  hashed : t.hashed = []
  scan : t.scan = {}
  received : t.received = 0
  streamTracker : t.streamTracker = { expectedSize := j.manifest.sizeBytes }
  told : Told j stream t.ledger t.hashed
  quiet : ∀ e ∈ t.ledger, e.rebootExpected = false

/-- **The slot, the digest and the marker's search have seen the same bytes.** -/
structure Written (j : Job) (stream : Bytes) (t : Transfer) : Prop where
  sent : t.hashed ++ t.rest = stream
  updateOpen : t.updateOpen = true
  update : t.update = .writing t.hashed
  valid : validateImageMetadata j.format j.manifest (t.hashed.take j.format.metadataBytes) = .ok ()
  long : j.format.metadataBytes ≤ t.hashed.length
  scan : t.scan = after t.hashed
  received : t.received.toNat = t.hashed.length
  streamTracker : t.streamTracker = { expectedSize := j.manifest.sizeBytes, received := t.received }
  told : Told j stream t.ledger t.hashed
  quiet : ∀ e ∈ t.ledger, e.rebootExpected = false

/-- Selected for the next boot. -/
structure Selected (j : Job) (stream : Bytes) (t : Transfer) : Prop where
  updateOpen : t.updateOpen = false
  update : t.update = .ended t.hashed
  complete : Complete j stream t.hashed
  received : t.received.toNat = t.hashed.length

def Transfer.Inv (j : Job) (stream : Bytes) (t : Transfer) : Prop :=
  match t.phase with
  | .metadata => Reading j stream t ∧ t.metadata.length < j.format.metadataBytes
  | .streaming => Written j stream t ∧ t.received < j.manifest.sizeBytes
  | .finishing => Written j stream t ∧ t.received = j.manifest.sizeBytes
  | .verified => Written j stream t ∧ Complete j stream t.hashed
  | .ended => Selected j stream t ∧ Told j stream t.ledger t.hashed
  | .failed error =>
    (Told j stream t.ledger t.hashed ∧ ∀ e ∈ t.ledger, e.rebootExpected = false) ∧
      (t.updateOpen = false ∧ t.update = .closed ∨ error = ascii "ota_finalize_failed" ∧ Selected j stream t)

theorem append_drop_length_take (rest : Bytes) (n : ℕ) : rest.take n ++ rest.drop (rest.take n).length = rest := by
  have htaken : rest.take (rest.take n).length = rest.take n := by
    rw [List.length_take, ← List.take_take, List.take_length]
  calc rest.take n ++ rest.drop (rest.take n).length
      = rest.take (rest.take n).length ++ rest.drop (rest.take n).length := by rw [htaken]
    _ = rest := List.take_append_drop _ rest

/-! ### The ledger -/

theorem Told.append (h : Told j stream ledger hashed) {entries : List Entry}
    (hwritten : ∀ e ∈ entries, e.stage.tellsWritten = true → e.bytesReceived.toNat ≤ hashed.length)
    (hchecked : ∀ e ∈ entries, e.stage.tellsChecked = true → Complete j stream hashed) :
    Told j stream (ledger ++ entries) hashed where
  sent := h.sent
  written := by
    intro e he
    rcases List.mem_append.mp he with hbefore | hnow
    · exact h.written e hbefore
    · exact hwritten e hnow
  checked := by
    intro e he
    rcases List.mem_append.mp he with hbefore | hnow
    · exact h.checked e hbefore
    · exact hchecked e hnow

/-- More bytes come, as long as they are of the image. -/
theorem Told.more (h : Told j stream ledger hashed) (hsent : hashed ++ data <+: stream)
    (hle : hashed.length + data.length ≤ j.manifest.sizeBytes.toNat) : Told j stream ledger (hashed ++ data) where
  sent := hsent
  written := by
    intro e he htells
    have hbefore : e.bytesReceived.toNat ≤ hashed.length := h.written e he htells
    rw [List.length_append]
    omega
  checked := by
    intro e he htells
    -- what was checked is the whole image, so nothing comes
    have hcomplete : Complete j stream hashed := h.checked e he htells
    have hwhole : hashed.length = j.manifest.sizeBytes.toNat := hcomplete.length
    have hnil : data = [] := List.eq_nil_of_length_eq_zero (by omega)
    rw [hnil, List.append_nil]
    exact hcomplete

theorem quiet_append {entries : List Entry} (h : ∀ e ∈ ledger, e.rebootExpected = false)
    (hentries : ∀ e ∈ entries, e.rebootExpected = false) : ∀ e ∈ ledger ++ entries, e.rebootExpected = false := by
  intro e he
  rcases List.mem_append.mp he with hbefore | hnow
  · exact h e hbefore
  · exact hentries e hnow

/-- Entries of stages before the checks, or of what was checked. -/
theorem Written.record (h : Written j stream t) {stages : List Stage}
    (hchecked : ∀ stage ∈ stages, stage.tellsChecked = true → Complete j stream t.hashed) :
    Written j stream (j.record stages t.received t) where
  sent := h.sent
  updateOpen := h.updateOpen
  update := h.update
  valid := h.valid
  long := h.long
  scan := h.scan
  received := h.received
  streamTracker := h.streamTracker
  told := by
    refine h.told.append ?_ ?_
    · intro e he _
      obtain ⟨stage, -, rfl⟩ := List.mem_map.mp he
      exact h.received.le
    · intro e he htells
      obtain ⟨stage, hstage, rfl⟩ := List.mem_map.mp he
      exact hchecked stage hstage htells
  quiet := by
    refine quiet_append h.quiet fun e he => ?_
    obtain ⟨stage, -, rfl⟩ := List.mem_map.mp he
    rfl

/-! ### Where a download ends early -/

theorem inv_fail (htold : Told j stream t.ledger t.hashed) (hquiet : ∀ e ∈ t.ledger, e.rebootExpected = false)
    (hopen : t.updateOpen = false) (hupdate : t.update = .closed) (error : Bytes) : (t.fail error).Inv j stream :=
  ⟨⟨htold, hquiet⟩, .inl ⟨hopen, hupdate⟩⟩

theorem inv_failUpdate (htold : Told j stream t.ledger t.hashed) (hquiet : ∀ e ∈ t.ledger, e.rebootExpected = false)
    (hopen : t.updateOpen = true) (error : Bytes) : (t.failUpdate.fail error).Inv j stream := by
  have hclosed : t.failUpdate = { t with update := .closed, updateOpen := false } := if_pos hopen
  rw [hclosed]
  exact ⟨⟨htold, hquiet⟩, .inl ⟨rfl, rfl⟩⟩

theorem Reading.fail (h : Reading j stream t) (error : Bytes) : (t.fail error).Inv j stream :=
  inv_fail h.told h.quiet h.updateOpen h.update error

theorem Written.fail (h : Written j stream t) (error : Bytes) : (t.failUpdate.fail error).Inv j stream :=
  inv_failUpdate h.told h.quiet h.updateOpen error

theorem Reading.inv (h : Reading j stream t) (hshort : t.metadata.length < j.format.metadataBytes)
    (hphase : t.phase = .metadata) : t.Inv j stream := by
  unfold Transfer.Inv
  rw [hphase]
  exact ⟨h, hshort⟩

theorem Written.inv (h : Written j stream t) (hlt : t.received < j.manifest.sizeBytes)
    (hphase : t.phase = .streaming) : t.Inv j stream := by
  unfold Transfer.Inv
  rw [hphase]
  exact ⟨h, hlt⟩

theorem inv_start (j : Job) (stream : Bytes) (millis : UInt32) : (j.start stream millis).Inv j stream := by
  refine Reading.inv ?_ j.format.metadataBytes_pos rfl
  exact
    { sent := rfl
      updateOpen := rfl
      update := rfl
      hashed := rfl
      scan := rfl
      received := rfl
      streamTracker := rfl
      told := { sent := List.nil_prefix, written := by simp [Job.start, Job.entry, Stage.tellsWritten]
                checked := by simp [Job.start, Job.entry, Stage.tellsChecked] }
      quiet := by simp [Job.start, Job.entry] }

/-! ### A chunk -/

/-- What is accepted was written, and its length fits. -/
theorem of_accept {k : StreamTracker} {bytes : ℕ} {written : Bool} (h : (k.accept bytes written).2 = true) :
    written = true ∧ (k.accept bytes written).1 = { k with received := k.received + UInt32.ofNat bytes } ∧
      (k.received + UInt32.ofNat bytes).toNat = k.received.toNat + bytes ∧
      k.received + UInt32.ofNat bytes ≤ k.expectedSize := by
  unfold StreamTracker.accept at h ⊢
  split_ifs at h ⊢ with hfailure hwritten hfits
  · have hbound : k.received.toNat < 2 ^ 32 := k.received.toNat_lt
    have hsum : (k.received + UInt32.ofNat bytes).toNat = k.received.toNat + bytes := by
      rw [UInt32.toNat_add, UInt32.toNat_ofNat']
      omega
    have hle : k.received + UInt32.ofNat bytes ≤ k.expectedSize := UInt32.not_lt.mp fun hlt => hfits (.inr hlt)
    exact ⟨by simpa using hwritten, rfl, hsum, hle⟩

/-- A chunk before it is given to `Update`. -/
structure Chunk (j : Job) (stream data : Bytes) (t : Transfer) : Prop where
  sent : t.hashed ++ (data ++ t.rest) = stream
  updateOpen : t.updateOpen = true
  update : t.update = .writing t.hashed
  valid : validateImageMetadata j.format j.manifest ((t.hashed ++ data).take j.format.metadataBytes) = .ok ()
  long : j.format.metadataBytes ≤ (t.hashed ++ data).length
  scan : t.scan = after t.hashed
  received : t.received.toNat = t.hashed.length
  streamTracker : t.streamTracker = { expectedSize := j.manifest.sizeBytes, received := t.received }
  told : Told j stream t.ledger t.hashed
  quiet : ∀ e ∈ t.ledger, e.rebootExpected = false

/-- **A chunk** is counted, hashed and searched as it was written, or the update is given up. -/
theorem Chunk.accept (h : Chunk j stream data t) {written : Bool} {next : Transfer → Transfer}
    (hnext : ∀ t', Written j stream t' → t'.received ≤ j.manifest.sizeBytes → t'.phase = t.phase →
      (next t').Inv j stream) : (t.accept data written next).Inv j stream := by
  unfold Transfer.accept
  simp only
  cases haccepted : (t.streamTracker.accept data.length written).2 with
  | false => exact inv_failUpdate (by exact h.told) (by exact h.quiet) (by exact h.updateOpen) _
  | true =>
    obtain ⟨rfl, htracker, hsum, hle⟩ := of_accept haccepted
    rw [h.streamTracker] at hsum hle
    have hfits : t.hashed.length + data.length ≤ j.manifest.sizeBytes.toNat := by
      rw [← h.received, ← hsum]
      exact UInt32.le_iff_toNat_le.mp hle
    have hsent : t.hashed ++ data ++ t.rest = stream := by rw [List.append_assoc, h.sent]
    refine hnext _ ?_ hle rfl
    exact
      { sent := hsent
        updateOpen := h.updateOpen
        update := by rw [h.update]; rfl
        valid := h.valid
        long := h.long
        scan := by rw [after_append, h.scan]
        received := by rw [hsum, h.received, List.length_append]
        streamTracker := by rw [htracker, h.streamTracker]
        told := h.told.more ⟨t.rest, hsent⟩ hfits
        quiet := h.quiet }

/-! ### One pass -/

/-- **After a chunk** the loop goes on or ends. -/
theorem Written.proceed (h : Written j stream t) (hle : t.received ≤ j.manifest.sizeBytes) :
    (j.proceed t).Inv j stream := by
  unfold Job.proceed
  split_ifs with hlt
  · exact Written.inv { h with } hlt rfl
  · have hfinishing : Written j stream { t with phase := .finishing } := { h with }
    refine ⟨hfinishing.record ?_, UInt32.le_antisymm hle (UInt32.not_lt.mp hlt)⟩
    simp [Stage.tellsChecked]

/-- **The update begins** with metadata that is valid. -/
theorem Reading.begin (h : Reading j stream t) (hlength : t.metadata.length = j.format.metadataBytes) (l : Look) :
    (j.begin l t).Inv j stream := by
  unfold Job.begin
  split
  · exact h.fail _
  · next hvalid =>
    simp only
    have hvalidated : Reading j stream { t with ledger := t.ledger ++ [j.entry .imageMetadataValidated 0] } :=
      { h with
        told := h.told.append (by simp [Job.entry, Stage.tellsWritten]) (by simp [Job.entry, Stage.tellsChecked])
        quiet := quiet_append h.quiet (by simp [Job.entry]) }
    have hopened : Chunk j stream t.metadata (j.record [.updateBeginCompleted] (UInt32.ofNat t.metadata.length)
        { t with
          ledger := t.ledger ++ [j.entry .imageMetadataValidated 0]
          update := .writing []
          updateOpen := true }) :=
      { sent := by simpa [Job.record, h.hashed] using h.sent
        updateOpen := rfl
        update := congrArg Updater.writing h.hashed.symm
        valid := by
          simp only [Job.record, h.hashed]
          rw [List.nil_append, List.take_of_length_le hlength.le, hvalid]
        long := by simp [Job.record, h.hashed, hlength]
        scan := by simp [Job.record, h.scan, h.hashed, after, scanProtocol]
        received := by simp [Job.record, h.received, h.hashed]
        streamTracker := by simp [Job.record, h.streamTracker, h.received]
        told := hvalidated.told.append (by simp [Job.entry, Stage.tellsWritten])
          (by simp [Job.entry, Stage.tellsChecked])
        quiet := quiet_append hvalidated.quiet (by simp [Job.entry]) }
    split_ifs with hmetadata hbuffer hbegun hfault
    · exact hvalidated.fail _
    · exact inv_failUpdate hopened.told hopened.quiet hopened.updateOpen _
    · refine hopened.accept fun t' hwritten hle _ => ?_
      exact (hwritten.record (by simp [Stage.tellsChecked])).proceed hle
    · exact hvalidated.fail _
    · exact hvalidated.fail _

theorem Reading.metadataLook (h : Reading j stream t) (hshort : t.metadata.length < j.format.metadataBytes)
    (hphase : t.phase = .metadata) (l : Look) : (j.metadataLook l t).Inv j stream := by
  unfold Job.metadataLook
  split_ifs with havailable hstalled
  · exact h.fail _
  · exact h.inv hshort hphase
  · simp only
    set data := t.rest.take (min l.count (min (j.format.metadataBytes - t.metadata.length) l.available)) with hdata
    have hrest : data ++ t.rest.drop data.length = t.rest := append_drop_length_take t.rest _
    have hread : Reading j stream { t with
        rest := t.rest.drop data.length
        metadata := t.metadata ++ data
        lastProgressMs := l.progressMillis.toUInt64 } :=
      { h with sent := by rw [List.append_assoc, hrest, h.sent] }
    split_ifs with hnil hmore
    · exact h.fail _
    · exact hread.inv hmore hphase
    · refine hread.begin ?_ l
      have hlength : data.length ≤ j.format.metadataBytes - t.metadata.length := by
        rw [hdata, List.length_take]
        omega
      simp only [List.length_append] at hmore ⊢
      omega

/-- **After a chunk** of the rest. -/
theorem Written.progress (h : Written j stream t) (hle : t.received ≤ j.manifest.sizeBytes) (l : Look) (count : ℕ) :
    (j.progress l count t).Inv j stream := by
  unfold Job.progress
  simp only
  have hstreaming : Written j stream (j.record [.streaming] t.received t) := h.record (by simp [Stage.tellsChecked])
  split_ifs with hhalfway hshown htold htold
  · exact inv_failUpdate (by exact h.told) (by exact h.quiet) (by exact h.updateOpen) _
  · exact Written.proceed { hstreaming with } hle
  · exact Written.proceed { h with } hle
  · exact Written.proceed { hstreaming with } hle
  · exact Written.proceed { h with } hle

theorem Written.streamingLook (h : Written j stream t) (hlt : t.received < j.manifest.sizeBytes)
    (hphase : t.phase = .streaming) (l : Look) : (j.streamingLook l t).Inv j stream := by
  unfold Job.streamingLook
  simp only
  split_ifs with havailable hstalled hconnected
  · exact inv_failUpdate (by exact h.told) (by exact h.quiet) (by exact h.updateOpen) _
  · exact inv_failUpdate (by exact h.told) (by exact h.quiet) (by exact h.updateOpen) _
  · exact h.inv hlt hphase
  · exact inv_failUpdate (by exact h.told) (by exact h.quiet) (by exact h.updateOpen) _
  · set data := t.rest.take (min l.count (min 4096 (min l.available (j.manifest.sizeBytes - t.received).toNat)))
    have hrest : data ++ t.rest.drop data.length = t.rest := append_drop_length_take t.rest _
    have hchunk : Chunk j stream data { t with rest := t.rest.drop data.length } :=
      { sent := by rw [hrest, h.sent]
        updateOpen := h.updateOpen
        update := h.update
        valid := by rw [List.take_append_of_le_length h.long, h.valid]
        long := by
          rw [List.length_append]
          exact h.long.trans (Nat.le_add_right _ _)
        scan := h.scan
        received := h.received
        streamTracker := h.streamTracker
        told := h.told
        quiet := h.quiet }
    exact hchunk.accept fun t' hwritten hle _ => hwritten.progress hle l data.length

/-- What is checked when all bytes are received. -/
theorem of_finish {k : StreamTracker} {sha256Matches extraBytes : Bool}
    (h : (k.finish sha256Matches extraBytes).2 = true) :
    (k.finish sha256Matches extraBytes).1 = k ∧ sha256Matches = true ∧ extraBytes = false := by
  unfold StreamTracker.finish StreamTracker.fail at h ⊢
  cases sha256Matches <;> cases extraBytes <;> split_ifs at h ⊢ <;> simp_all

/-- All bytes were received, and the checks succeed. -/
theorem Written.complete (h : Written j stream t) (heq : t.received = j.manifest.sizeBytes)
    (hdigest : constantTimeEqual (sha256Hex j.primitives t.hashed) j.manifest.sha256 = true)
    (hseen : t.scan.protocolSeen = true) : Complete j stream t.hashed where
  sent := ⟨t.rest, h.sent⟩
  length := by rw [← h.received, heq]
  valid := h.valid
  digest := hdigest
  marker := by rw [← h.scan, hseen]

/-- **Only a complete image is verified.** -/
theorem Written.verify (h : Written j stream t) (heq : t.received = j.manifest.sizeBytes) (extraBytes : Bool) :
    (j.verify extraBytes t).Inv j stream := by
  unfold Job.verify
  simp only
  generalize hmatches : constantTimeEqual (sha256Hex j.primitives t.hashed) j.manifest.sha256 = hashMatches
  have hchecked (hfinished : (t.streamTracker.finish hashMatches extraBytes).2 = true)
      (hseen : t.scan.protocolSeen = true) :
      Complete j stream t.hashed ∧
        Written j stream { t with streamTracker := (t.streamTracker.finish hashMatches extraBytes).1 } := by
    obtain ⟨htracker, hdigest, -⟩ := of_finish hfinished
    exact ⟨h.complete heq (hmatches.trans hdigest) hseen, { h with streamTracker := htracker.trans h.streamTracker }⟩
  split_ifs with hfinished hseen hbefore
  · obtain ⟨hcomplete, htracked⟩ := hchecked hfinished hseen
    exact (htracked.record fun _ _ _ => hcomplete).fail _
  · obtain ⟨hcomplete, htracked⟩ := hchecked hfinished hseen
    exact ⟨{ htracked.record fun _ _ _ => hcomplete with }, hcomplete⟩
  · exact inv_failUpdate (by exact h.told) (by exact h.quiet) (by exact h.updateOpen) _
  · exact inv_failUpdate (by exact h.told) (by exact h.quiet) (by exact h.updateOpen) _

theorem Written.finishingLook (h : Written j stream t) (heq : t.received = j.manifest.sizeBytes)
    (l : Look) : (j.finishingLook l t).Inv j stream := by
  unfold Job.finishingLook
  split_ifs with hfault
  · exact h.fail _
  · have htransport : Written j stream (j.record [.httpTransportDestroyed] t.received t) :=
      h.record (by simp [Stage.tellsChecked])
    exact htransport.verify heq _

theorem Written.verifiedLook (h : Written j stream t) (hcomplete : Complete j stream t.hashed) (l : Look) :
    (j.verifiedLook l t).Inv j stream := by
  unfold Job.verifiedLook
  simp only [h.update, Updater.finish]
  have hselected : Selected j stream { t with update := .ended t.hashed, updateOpen := false } :=
    { updateOpen := rfl, update := rfl, complete := hcomplete, received := h.received }
  split_ifs with hfinished hended hended
  · exact ⟨⟨h.told, h.quiet⟩, .inr ⟨rfl, { hselected with }⟩⟩
  · exact ⟨⟨h.told, h.quiet⟩, .inl ⟨rfl, rfl⟩⟩
  · refine ⟨{ hselected with }, ?_⟩
    refine h.told.append ?_ ?_
    · simp [Job.entry, h.received]
    · simp [hcomplete]
  · exact absurd (.inl hended) hfinished

/-- **Every pass keeps the invariant.** -/
theorem inv_look (h : t.Inv j stream) (l : Look) : (j.look t l).Inv j stream := by
  have hinv := h
  unfold Transfer.Inv at h
  unfold Job.look
  cases hphase : t.phase with
  | metadata =>
    rw [hphase] at h
    exact h.1.metadataLook h.2 hphase l
  | streaming =>
    rw [hphase] at h
    exact h.1.streamingLook h.2 hphase l
  | finishing =>
    rw [hphase] at h
    exact h.1.finishingLook h.2 l
  | verified =>
    rw [hphase] at h
    exact h.1.verifiedLook h.2 l
  | ended => exact hinv
  | failed error => exact hinv

theorem inv_run (h : t.Inv j stream) (looks : List Look) : (j.run t looks).Inv j stream := by
  induction looks generalizing t with
  | nil => exact h
  | cons l looks ih => exact ih (inv_look h l)

/-! ### What is selected for the next boot -/

/-- **Whatever is selected is complete**, whether or not the update's end is reported. -/
theorem complete_of_ended (h : t.Inv j stream) (hended : t.update = .ended image) : Complete j stream image := by
  have hselected : Selected j stream t → Complete j stream image := by
    intro hselected
    obtain rfl : t.hashed = image := Updater.ended.inj (hselected.update.symm.trans hended)
    exact hselected.complete
  unfold Transfer.Inv at h
  split at h
  · exact absurd (h.1.update.symm.trans hended) nofun
  · exact absurd (h.1.update.symm.trans hended) nofun
  · exact absurd (h.1.update.symm.trans hended) nofun
  · exact absurd (h.1.update.symm.trans hended) nofun
  · exact hselected h.1
  · rcases h.2 with ⟨-, hclosed⟩ | ⟨-, hfinal⟩
    · exact absurd (hclosed.symm.trans hended) nofun
    · exact hselected hfinal

/-- The descriptor is the manifest's. -/
structure Described (f : Format) (m : Manifest) (d : Metadata) : Prop where
  magic : d.magic = f.headerMagic
  chipId : d.chipId = esp32S3ChipId
  magicWord : d.magicWord = f.descriptorMagic
  projectName : boundedDescriptorString d.projectName = some m.projectName
  version : boundedDescriptorString d.version = some m.version
  buildHash : hexEncode d.appElfSha256.toList = m.buildHash

theorem length_hexEncode (data : Bytes) : (hexEncode data).length = 2 * data.length := by
  induction data with
  | nil => rfl
  | cons b data ih =>
    unfold hexEncode at ih ⊢
    rw [List.flatMap_cons, List.length_append, ih, List.length_cons, List.length_cons, List.length_nil,
      List.length_cons]
    omega

/-- A digest is compared with a text that is one. -/
theorem digest_eq {digest : Key32} {text : Bytes} (htext : lowercaseHex text 64 = true)
    (h : constantTimeEqual (hexEncode digest.toList) text = true) : hexEncode digest.toList = text := by
  have hlength : text.length = 64 := by
    unfold lowercaseHex at htext
    simp only [Bool.and_eq_true, beq_iff_eq] at htext
    exact htext.1
  have hdigest : (hexEncode digest.toList).length = 64 := by
    rw [length_hexEncode, Vector.length_toList]
  rwa [constantTimeEqual_iff (by omega) (by omega)] at h

theorem hashes_of_fieldsValid {m : Manifest} (h : manifestFieldsValid m = true) :
    lowercaseHex m.sha256 64 = true ∧ lowercaseHex m.buildHash 64 = true := by
  unfold manifestFieldsValid at h
  simp only [Bool.and_eq_true] at h
  exact ⟨h.1.1.1.1.1.2, h.1.1.1.1.2⟩

theorem described_of_valid {f : Format} {m : Manifest} {metadata : Bytes} (hm : lowercaseHex m.buildHash 64 = true)
    (h : validateImageMetadata f m metadata = .ok ()) : Described f m (f.decode metadata) := by
  unfold validateImageMetadata at h
  simp only at h
  split at h
  · cases h
  next hheader =>
  push Not at hheader
  obtain ⟨hmagic, hchip, -, -, hword⟩ := hheader
  split at h
  · next projectName version hproject hversion =>
    split_ifs at h with hp hv hb
    exact
      { magic := hmagic
        chipId := hchip
        magicWord := hword
        projectName := by rw [hproject, not_not.mp hp]
        version := by rw [hversion, not_not.mp hv]
        buildHash := digest_eq hm hb }
  · cases h

/-- **Only the manifest's image is selected for the next boot.** However the network cuts the stream and wherever the
download ends: what the boot loader is given are the first bytes that were sent, as many as the manifest says, with the
digest of the manifest, the marker and a descriptor that names the manifest's version and build. -/
theorem ended_image (j : Job) (hfields : manifestFieldsValid j.manifest = true) (stream : Bytes) (millis : UInt32)
    (looks : List Look) (image : Bytes) (hended : (j.run (j.start stream millis) looks).update = .ended image) :
    image = stream.take j.manifest.sizeBytes.toNat ∧ image.length = j.manifest.sizeBytes.toNat ∧
      sha256Hex j.primitives image = j.manifest.sha256 ∧ marker <:+: image ∧
      Described j.format j.manifest (j.format.decode (image.take j.format.metadataBytes)) := by
  have h : Complete j stream image := complete_of_ended (inv_run (inv_start j stream millis) looks) hended
  obtain ⟨hsha, hbuild⟩ := hashes_of_fieldsValid hfields
  have htake : image = stream.take j.manifest.sizeBytes.toNat := by
    rw [← h.length]
    exact List.prefix_iff_eq_take.mp h.sent
  have hdigest : sha256Hex j.primitives image = j.manifest.sha256 := digest_eq hsha h.digest
  have hmarker : marker <:+: image := by
    obtain ⟨pre, post, himage, -⟩ := exists_of_seen image h.marker
    exact ⟨pre, post, by rw [himage, List.append_assoc]⟩
  exact ⟨htake, h.length, hdigest, hmarker, described_of_valid hbuild h.valid⟩

theorem ended_sampleImage : marker <:+: sampleImage ∧
    sha256Hex sampleJob.primitives sampleImage = sampleJob.manifest.sha256 := by
  obtain ⟨-, -, hdigest, hmarker, -⟩ := ended_image sampleJob (by decide +kernel) sampleImage 0 sampleLooks sampleImage
    run_sampleLooks.1
  exact ⟨hmarker, hdigest⟩

/-- **The selected slot passes its check**: the service does not go back for the image's sake. -/
theorem validate_selected (j : Job) (hfields : manifestFieldsValid j.manifest = true) (stream : Bytes) (millis : UInt32)
    (looks : List Look) (image : Bytes) (hended : (j.run (j.start stream millis) looks).update = .ended image) :
    validateSelectedPartition j.manifest (some (j.format.read image)) = .ok () := by
  have h : Complete j stream image := complete_of_ended (inv_run (inv_start j stream millis) looks) hended
  have hdescribed := described_of_valid (hashes_of_fieldsValid hfields).2 h.valid
  have hversion : (j.format.read image).version = j.manifest.version := by
    simp only [Format.read, hdescribed.version, Option.getD_some]
  have hbuild : (j.format.read image).buildHash = j.manifest.buildHash := hdescribed.buildHash
  simp [validateSelectedPartition, hversion, hbuild]

/-! ### What is left behind -/

/-- **The ledger does not tell of more than there is**, at no time: the bytes it tells of were written, an image it
tells to be verified is complete, and where it tells that a reboot is expected, that image is selected. -/
theorem ledger_truthful (j : Job) (stream : Bytes) (millis : UInt32) (looks : List Look) (e : Entry)
    (he : e ∈ (j.run (j.start stream millis) looks).ledger) :
    (e.stage.tellsWritten = true →
        (stream.take e.bytesReceived.toNat) <+: (j.run (j.start stream millis) looks).hashed) ∧
      (e.stage.tellsChecked = true → Complete j stream (j.run (j.start stream millis) looks).hashed) ∧
      (e.rebootExpected = true →
        (j.run (j.start stream millis) looks).update = .ended (j.run (j.start stream millis) looks).hashed) := by
  have h := inv_run (inv_start j stream millis) looks
  generalize j.run (j.start stream millis) looks = t at h he ⊢
  have htold : Told j stream t.ledger t.hashed := by
    unfold Transfer.Inv at h
    split at h
    · exact h.1.told
    · exact h.1.told
    · exact h.1.told
    · exact h.1.told
    · exact h.2
    · exact h.1.1
  have hquiet : t.phase ≠ .ended → e.rebootExpected = false := by
    intro hphase
    unfold Transfer.Inv at h
    split at h
    · exact h.1.quiet e he
    · exact h.1.quiet e he
    · exact h.1.quiet e he
    · exact h.1.quiet e he
    · next hended => exact absurd hended hphase
    · exact h.1.2 e he
  refine ⟨fun htells => ?_, htold.checked e he, fun hreboot => ?_⟩
  · have hle : e.bytesReceived.toNat ≤ t.hashed.length := htold.written e he htells
    rw [List.prefix_iff_eq_take.mp htold.sent]
    exact List.take_prefix_take_left hle
  · by_cases hphase : t.phase = .ended
    · unfold Transfer.Inv at h
      rw [hphase] at h
      exact h.1.update
    · exact absurd (hreboot.symm.trans (hquiet hphase)) nofun

theorem ledger_truthful_selected :
    (sampleJob.run (sampleJob.start sampleImage 0) sampleLooks).update =
      .ended (sampleJob.run (sampleJob.start sampleImage 0) sampleLooks).hashed :=
  (ledger_truthful sampleJob sampleImage 0 sampleLooks sampleEntry run_sampleLooks.2).2.2 rfl

end PowerMonitor.Ota.Download
