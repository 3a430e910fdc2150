import PowerMonitor.Lib.Ticks
import PowerMonitor.Ota.DownloadImage

/-! # Updates: a download comes to its end

A pass that reads leaves fewer bytes to come, and a pass that does not read is given up after fifteen seconds. So a
download ends, whatever the server does; and if the server sends the manifest's image and the platform does what it is
asked for, it ends with this image selected, however the network cuts it.

* `sound_look`: a pass over a good image goes on, or waits.
* `good_image_selected`: **a good image is selected.**
* `download_bounded`: **a download ends**, at the latest after fifteen seconds for each byte. -/

namespace PowerMonitor.Ota.Download

open PowerMonitor.Lib.Binary PowerMonitor.Lib.Ticks PowerMonitor.Security.Crypto
open PowerMonitor.Ota.ManifestV2 PowerMonitor.Ota.ProtocolMarker

variable {j : Job} {t : Transfer} {l : Look} {stream image data : Bytes}

/-! ### A good image -/

/-- The platform does what it is asked for, and announces no bytes that do not come. -/
structure Sound (t : Transfer) (l : Look) : Prop where
  available : l.available ≤ t.rest.length
  count : 0 < l.count
  patient : t.stalled l = false
  streamBuffer : l.streamBuffer = true
  begun : l.begun = true
  written : l.written = true
  ended : l.ended = true
  isFinished : l.isFinished = true

def SoundRun (j : Job) : Transfer → List Look → Prop
  | _, [] => True
  | t, l :: looks => Sound t l ∧ SoundRun j (j.look t l) looks

/-- The pass has nothing to read. -/
def Transfer.waits (t : Transfer) (l : Look) : Bool :=
  (t.phase == .metadata || t.phase == .streaming) && l.available == 0

/-- How many passes do not wait. -/
def busy (j : Job) : Transfer → List Look → ℕ
  | _, [] => 0
  | t, l :: looks => (if t.waits l then 0 else 1) + busy j (j.look t l) looks

/-- At most so many passes are left that do not wait. -/
def Transfer.remaining (t : Transfer) : ℕ :=
  match t.phase with
  | .metadata | .streaming => t.rest.length + 2
  | .finishing => 2
  | .verified => 1
  | .ended | .failed _ => 0

def Transfer.succeeds (t : Transfer) : Prop := ∀ error, t.phase ≠ .failed error

/-- A chunk that was written and fits is accepted. -/
theorem accept_of_fits {k : StreamTracker} {bytes : ℕ} (hfailure : k.failure = .none)
    (hfits : k.received.toNat + bytes ≤ k.expectedSize.toNat) :
    k.accept bytes true = ({ k with received := k.received + UInt32.ofNat bytes }, true) := by
  have hexpected : k.expectedSize.toNat < 2 ^ 32 := k.expectedSize.toNat_lt
  have hsum : (k.received + UInt32.ofNat bytes).toNat = k.received.toNat + bytes := by
    rw [UInt32.toNat_add, UInt32.toNat_ofNat']
    omega
  unfold StreamTracker.accept
  rw [if_neg (by simp [hfailure]), if_neg (by simp), if_neg]
  push Not
  constructor
  · omega
  · intro hgt
    have hlt : k.expectedSize.toNat < (k.received + UInt32.ofNat bytes).toNat := UInt32.lt_iff_toNat_lt.mp hgt
    omega

/-- The download goes on with a chunk that was written and fits. -/
theorem accept_sound (htracker : t.streamTracker = { expectedSize := j.manifest.sizeBytes, received := t.received })
    (hfits : t.received.toNat + data.length ≤ j.manifest.sizeBytes.toNat) {next : Transfer → Transfer} {n : ℕ}
    (hnext : ∀ t', t'.rest = t.rest → (next t').succeeds ∧ (next t').remaining ≤ n) :
    (t.accept data true next).succeeds ∧ (t.accept data true next).remaining ≤ n := by
  have haccepted : t.streamTracker.accept data.length true =
      ({ t.streamTracker with received := t.streamTracker.received + UInt32.ofNat data.length }, true) :=
    accept_of_fits (by rw [htracker]) (by rw [htracker]; exact hfits)
  unfold Transfer.accept
  simp only [haccepted, not_true_eq_false, if_false]
  exact hnext _ rfl

/-- One pass that goes on. -/
structure Advances (t t' : Transfer) : Prop where
  succeeds : t'.succeeds
  remaining : t'.remaining < t.remaining

theorem succeeds_proceed (t : Transfer) : (j.proceed t).succeeds ∧ (j.proceed t).remaining ≤ t.rest.length + 2 := by
  unfold Job.proceed
  split_ifs with hlt
  · exact ⟨fun _ => nofun, le_refl _⟩
  · refine ⟨fun _ => nofun, ?_⟩
    show 2 ≤ t.rest.length + 2
    omega

theorem succeeds_progress (hfault : j.fault = none) (t : Transfer) (l : Look) (count : ℕ) :
    (j.progress l count t).succeeds ∧ (j.progress l count t).remaining ≤ t.rest.length + 2 := by
  unfold Job.progress
  simp only [hfault, reduceCtorEq, and_false, if_false]
  split_ifs <;> exact succeeds_proceed _

/-- The metadata of a good image is valid, and it is written. -/
theorem Reading.begin_sound (h : Reading j image t) (hcomplete : Complete j image image) (hfault : j.fault = none)
    (hlength : t.metadata.length = j.format.metadataBytes) (hbuffer : l.streamBuffer = true) (hbegun : l.begun = true)
    (hwritten : l.written = true) : (j.begin l t).succeeds ∧ (j.begin l t).remaining ≤ t.rest.length + 2 := by
  have hmetadata : t.metadata = image.take j.format.metadataBytes := by
    rw [← hlength]
    exact List.prefix_iff_eq_take.mp ⟨t.rest, h.sent⟩
  have hvalid : validateImageMetadata j.format j.manifest t.metadata = .ok () := by
    rw [hmetadata]
    exact hcomplete.valid
  have hfits : t.metadata.length ≤ j.manifest.sizeBytes.toNat := by
    rw [← hcomplete.length, ← h.sent, List.length_append]
    omega
  unfold Job.begin
  simp only [hvalid, hfault, hbuffer, hbegun, hwritten, reduceCtorEq, not_true_eq_false, if_false, ne_eq,
    not_false_eq_true, decide_true, Bool.and_true]
  refine accept_sound (j := j) (by simp [Job.record, h.streamTracker, h.received])
    (by simpa [Job.record, h.received] using hfits) fun t' hrest => ?_
  have hproceed := succeeds_proceed (j := j) (j.record [.firstBytesWritten] t'.received t')
  have hsame : (j.record [.firstBytesWritten] t'.received t').rest = t.rest := hrest
  rw [hsame] at hproceed
  exact hproceed

/-- Something is read. -/
theorem read_pos {count wanted : ℕ} {rest : Bytes} (hcount : 0 < count) (hwanted : 0 < wanted)
    (hrest : 0 < rest.length) :
    0 < (rest.take (min count wanted)).length := by
  rw [List.length_take]
  omega

theorem Reading.sound (h : Reading j image t) (hcomplete : Complete j image image) (hfault : j.fault = none)
    (hshort : t.metadata.length < j.format.metadataBytes) (hphase : t.phase = .metadata) (hsound : Sound t l)
    (havailable : l.available ≠ 0) : Advances t (j.metadataLook l t) := by
  have hmore : 0 < t.rest.length := by
    have hsent : l.available ≤ t.rest.length := hsound.available
    omega
  unfold Job.metadataLook
  rw [if_neg havailable]
  simp only
  set data := t.rest.take (min l.count (min (j.format.metadataBytes - t.metadata.length) l.available)) with hdata
  have hpos : 0 < data.length := read_pos hsound.count (by omega) hmore
  have hremaining : t.remaining = t.rest.length + 2 := by
    unfold Transfer.remaining
    rw [hphase]
  have hless : (t.rest.drop data.length).length < t.rest.length := by
    rw [List.length_drop]
    omega
  have hread : Reading j image { t with
      rest := t.rest.drop data.length
      metadata := t.metadata ++ data
      lastProgressMs := l.progressMillis.toUInt64 } :=
    { h with sent := by rw [List.append_assoc, append_drop_length_take, h.sent] }
  have hnil : data ≠ [] := List.ne_nil_of_length_pos hpos
  rw [if_neg hnil]
  split_ifs with hmetadata
  · refine ⟨fun _ => ?_, ?_⟩
    · simp [hphase]
    · rw [hremaining]
      unfold Transfer.remaining
      simp only [hphase]
      omega
  · have hlength : (t.metadata ++ data).length = j.format.metadataBytes := by
      have hle : data.length ≤ j.format.metadataBytes - t.metadata.length := by
        rw [hdata, List.length_take]
        omega
      simp only [List.length_append] at hmetadata ⊢
      omega
    have hbegin := hread.begin_sound hcomplete hfault hlength hsound.streamBuffer hsound.begun hsound.written
    refine ⟨hbegin.1, ?_⟩
    rw [hremaining]
    have hle := hbegin.2
    simp only at hle
    omega

theorem Written.sound (h : Written j image t) (hfault : j.fault = none) (hlt : t.received < j.manifest.sizeBytes)
    (hphase : t.phase = .streaming) (hsound : Sound t l) (havailable : l.available ≠ 0) :
    Advances t (j.streamingLook l t) := by
  have hmore : 0 < t.rest.length := by
    have hsent : l.available ≤ t.rest.length := hsound.available
    omega
  have hleft : (j.manifest.sizeBytes - t.received).toNat = j.manifest.sizeBytes.toNat - t.received.toNat :=
    UInt32.toNat_sub_of_le _ _ (UInt32.le_of_lt hlt)
  have hgap : t.received.toNat < j.manifest.sizeBytes.toNat := UInt32.lt_iff_toNat_lt.mp hlt
  unfold Job.streamingLook
  rw [if_neg havailable]
  simp only
  set data := t.rest.take (min l.count (min 4096 (min l.available (j.manifest.sizeBytes - t.received).toNat)))
    with hdata
  have hpos : 0 < data.length := read_pos hsound.count (by omega) hmore
  have hle : data.length ≤ j.manifest.sizeBytes.toNat - t.received.toNat := by
    rw [hdata, List.length_take]
    omega
  have hnil : data ≠ [] := List.ne_nil_of_length_pos hpos
  rw [if_neg hnil, hsound.written]
  have hfits : t.received.toNat + data.length ≤ j.manifest.sizeBytes.toNat := by omega
  have hprogress :
      (Transfer.accept { t with rest := t.rest.drop data.length } data true (j.progress l data.length)).succeeds ∧
      (Transfer.accept { t with rest := t.rest.drop data.length } data true (j.progress l data.length)).remaining ≤
        (t.rest.drop data.length).length + 2 := by
    refine accept_sound (j := j) (by exact h.streamTracker) (by exact hfits) fun t' hrest => ?_
    have hnext := succeeds_progress hfault t' l data.length
    rw [hrest] at hnext
    exact hnext
  refine ⟨hprogress.1, lt_of_le_of_lt hprogress.2 ?_⟩
  unfold Transfer.remaining
  simp only [hphase, List.length_drop]
  omega

theorem Written.finishing_sound (h : Written j image t) (hcomplete : Complete j image image) (hfault : j.fault = none)
    (heq : t.received = j.manifest.sizeBytes) (hphase : t.phase = .finishing) (hsound : Sound t l) :
    Advances t (j.finishingLook l t) := by
  have hlength : t.hashed.length = image.length := by rw [← h.received, heq, hcomplete.length]
  have hwhole : t.hashed = image := List.IsPrefix.eq_of_length ⟨t.rest, h.sent⟩ hlength
  have hrest : t.rest.length = 0 := by
    have hsum : t.hashed.length + t.rest.length = image.length := by rw [← List.length_append, h.sent]
    omega
  have hextra : l.available = 0 := by
    have hsent : l.available ≤ t.rest.length := hsound.available
    omega
  have hdigest : constantTimeEqual (sha256Hex j.primitives t.hashed) j.manifest.sha256 = true := by
    rw [hwhole]
    exact hcomplete.digest
  have hseen : t.scan.protocolSeen = true := by
    rw [h.scan, hwhole]
    exact hcomplete.marker
  have hfinish : t.streamTracker.finish true false = (t.streamTracker, true) := by
    rw [h.streamTracker, heq]
    simp [StreamTracker.finish]
  have hlook : j.finishingLook l t = { j.record [.hashVerified, .protocolMarkerVerified, .updateEndBeginning] t.received
      (j.record [.httpTransportDestroyed] t.received t) with phase := .verified } := by
    unfold Job.finishingLook Job.verify
    simp [hfault, hextra, Job.record, hdigest, hfinish, hseen]
  rw [hlook]
  refine ⟨fun _ => Phase.noConfusion, ?_⟩
  unfold Transfer.remaining
  rw [hphase]
  show 1 < 2
  omega

theorem verified_sound (hphase : t.phase = .verified) (hsound : Sound t l) : Advances t (j.verifiedLook l t) := by
  unfold Job.verifiedLook
  simp only [hsound.ended, hsound.isFinished, not_true_eq_false, or_self, if_false]
  refine ⟨fun _ => nofun, ?_⟩
  unfold Transfer.remaining
  rw [hphase]
  show 0 < 1
  omega

/-- **A pass over a good image goes on, or waits.** -/
theorem sound_look (h : t.Inv j image) (hcomplete : Complete j image image) (hfault : j.fault = none)
    (hsucceeds : t.succeeds) (hsound : Sound t l) :
    (j.look t l).succeeds ∧
      ((j.look t l).remaining + (if t.waits l then 0 else 1) ≤ t.remaining ∨ (j.look t l).remaining = 0) := by
  have hadvances (t' : Transfer) (hnext : Advances t t') :
      t'.succeeds ∧ (t'.remaining + (if t.waits l then 0 else 1) ≤ t.remaining ∨ t'.remaining = 0) := by
    refine ⟨hnext.succeeds, .inl ?_⟩
    have hless : t'.remaining < t.remaining := hnext.remaining
    split_ifs <;> omega
  unfold Transfer.Inv at h
  unfold Job.look
  cases hphase : t.phase with
  | metadata =>
    rw [hphase] at h
    by_cases havailable : l.available = 0
    · have hwaits : j.metadataLook l t = t := by
        unfold Job.metadataLook
        rw [if_pos havailable, hsound.patient]
        rfl
      simp only [hwaits]
      exact ⟨hsucceeds, by simp [Transfer.waits, hphase, havailable]⟩
    · exact hadvances _ (h.1.sound hcomplete hfault h.2 hphase hsound havailable)
  | streaming =>
    rw [hphase] at h
    by_cases havailable : l.available = 0
    · have hwaits : j.streamingLook l t = t := by
        unfold Job.streamingLook
        rw [if_pos havailable, hsound.patient]
        rfl
      simp only [hwaits]
      exact ⟨hsucceeds, by simp [Transfer.waits, hphase, havailable]⟩
    · exact hadvances _ (h.1.sound hfault h.2 hphase hsound havailable)
  | finishing =>
    rw [hphase] at h
    exact hadvances _ (h.1.finishing_sound hcomplete hfault h.2 hphase hsound)
  | verified => exact hadvances _ (verified_sound hphase hsound)
  | ended =>
    refine ⟨hsucceeds, .inr ?_⟩
    unfold Transfer.remaining
    rw [hphase]
  | failed error => exact absurd hphase (hsucceeds error)

theorem sound_run (looks : List Look) {t : Transfer} (h : t.Inv j image) (hcomplete : Complete j image image)
    (hfault : j.fault = none) (hsucceeds : t.succeeds) (hsound : SoundRun j t looks) :
    (j.run t looks).succeeds ∧
      ((j.run t looks).remaining + busy j t looks ≤ t.remaining ∨ (j.run t looks).remaining = 0) := by
  induction looks generalizing t with
  | nil => exact ⟨hsucceeds, .inl (le_refl _)⟩
  | cons l looks ih =>
    obtain ⟨hnow, hlater⟩ := hsound
    obtain ⟨hnext, hle⟩ := sound_look h hcomplete hfault hsucceeds hnow
    obtain ⟨hend, hmeasure⟩ := ih (inv_look h l) hnext hlater
    have hrun : j.run t (l :: looks) = j.run (j.look t l) looks := rfl
    have hcount : busy j t (l :: looks) = (if t.waits l then 0 else 1) + busy j (j.look t l) looks := rfl
    rw [hrun, hcount]
    refine ⟨hend, ?_⟩
    omega

/-- **A good image is selected.** If the server sends the manifest's image and nothing else, and the platform does what
it is asked for, a download does not fail, however the network cuts the image and however long it waits in between; and
it ends with this image after no more passes than the image has bytes, and two. -/
theorem good_image_selected (j : Job) (image : Bytes) (millis : UInt32) (looks : List Look)
    (hcomplete : Complete j image image) (hfault : j.fault = none) (hsound : SoundRun j (j.start image millis) looks) :
    (j.run (j.start image millis) looks).phase = .ended ∧ (j.run (j.start image millis) looks).update = .ended image ∨
      (∀ error, (j.run (j.start image millis) looks).phase ≠ .failed error) ∧
        busy j (j.start image millis) looks < j.manifest.sizeBytes.toNat + 2 := by
  have hinv := inv_run (inv_start j image millis) looks
  obtain ⟨hsucceeds, hmeasure⟩ := sound_run looks (inv_start j image millis) hcomplete hfault (fun _ => nofun) hsound
  have hstart : (j.start image millis).remaining = j.manifest.sizeBytes.toNat + 2 := by
    rw [← hcomplete.length]
    rfl
  rw [hstart] at hmeasure
  generalize j.run (j.start image millis) looks = t at hinv hsucceeds hmeasure ⊢
  by_cases hended : t.phase = .ended
  · refine .inl ⟨hended, ?_⟩
    unfold Transfer.Inv at hinv
    rw [hended] at hinv
    have hselected : Selected j image t := hinv.1
    have hwhole : t.hashed = image :=
      hselected.complete.sent.eq_of_length (hselected.complete.length.trans hcomplete.length.symm)
    rw [hselected.update, hwhole]
  · refine .inr ⟨hsucceeds, ?_⟩
    have hpositive : 0 < t.remaining := by
      unfold Transfer.remaining
      split
      · omega
      · omega
      · omega
      · omega
      · next hphase => exact absurd hphase hended
      · next error herror => exact absurd herror (hsucceeds error)
    omega

theorem complete_sampleImage : Complete sampleJob sampleImage sampleImage :=
  complete_of_ended (inv_run (inv_start _ _ 0) sampleLooks) run_sampleLooks.1

/-- The first bytes come, and then none for a while. -/
theorem good_image_waits :
    (sampleJob.run (sampleJob.start sampleImage 0) [sampleLook 200 true, sampleLook 0 true]).phase ≠
      .failed (ascii "ota_image_stream_interrupted") := by
  have hsound : SoundRun sampleJob (sampleJob.start sampleImage 0) [sampleLook 200 true, sampleLook 0 true] :=
    ⟨⟨by decide +kernel, by decide, by decide +kernel, rfl, rfl, rfl, rfl, rfl⟩,
      ⟨Nat.zero_le _, by decide, by decide +kernel, rfl, rfl, rfl, rfl, rfl⟩, trivial⟩
  rcases good_image_selected sampleJob sampleImage 0 [sampleLook 200 true, sampleLook 0 true] complete_sampleImage rfl
      hsound with ⟨hended, -⟩ | ⟨hgoes, -⟩
  · rw [hended]
    nofun
  · exact hgoes _

/-! ### How long a download takes -/

/-- The passes come one after the other, each done within `d` milliseconds of the one before. -/
def Paced (d : ℕ) : ℕ → List Look → Prop
  | _, [] => True
  | now, l :: looks =>
    now ≤ l.millis.toNat ∧ l.millis.toNat ≤ l.progressMillis.toNat ∧ l.progressMillis.toNat ≤ now + d ∧
      Paced d l.progressMillis.toNat looks

def Transfer.reads (t : Transfer) : Prop := t.phase = .metadata ∨ t.phase = .streaming

/-- If the download reads on, then after progress, and fewer bytes than `n` are left. -/
def Resumes (l : Look) (n : ℕ) (t : Transfer) : Prop :=
  t.reads → t.lastProgressMs = l.progressMillis.toUInt64 ∧ t.rest.length < n

theorem resumes_fail (l : Look) (n : ℕ) (t : Transfer) (error : Bytes) : Resumes l n (t.fail error) := by
  intro hreads
  rcases hreads with hphase | hphase
  · exact absurd hphase nofun
  · exact absurd hphase nofun

theorem resumes_proceed {n : ℕ} (hlast : t.lastProgressMs = l.progressMillis.toUInt64) (hrest : t.rest.length < n) :
    Resumes l n (j.proceed t) := by
  unfold Job.proceed
  split_ifs with hlt
  · exact fun _ => ⟨hlast, hrest⟩
  · exact fun _ => ⟨hlast, hrest⟩

theorem resumes_progress {n : ℕ} (hrest : t.rest.length < n) (count : ℕ) : Resumes l n (j.progress l count t) := by
  unfold Job.progress
  simp only
  split_ifs
  · exact resumes_fail l n _ _
  all_goals exact resumes_proceed rfl hrest

theorem resumes_accept {n : ℕ} {written : Bool} {next : Transfer → Transfer}
    (hnext : ∀ t', t'.rest = t.rest → t'.lastProgressMs = t.lastProgressMs → Resumes l n (next t')) :
    Resumes l n (t.accept data written next) := by
  unfold Transfer.accept
  simp only
  split_ifs
  · exact hnext _ rfl rfl
  · exact resumes_fail l n _ _

theorem resumes_begin {n : ℕ} (hlast : t.lastProgressMs = l.progressMillis.toUInt64) (hrest : t.rest.length < n) :
    Resumes l n (j.begin l t) := by
  unfold Job.begin
  split
  · exact resumes_fail l n _ _
  · simp only
    split_ifs
    · exact resumes_fail l n _ _
    · exact resumes_fail l n _ _
    · refine resumes_accept fun t' hsame hsameLast => ?_
      refine resumes_proceed ?_ ?_
      · exact hsameLast.trans hlast
      · exact lt_of_eq_of_lt (congrArg List.length hsame) hrest
    · exact resumes_fail l n _ _
    · exact resumes_fail l n _ _

theorem length_drop_read {rest : Bytes} {n : ℕ} (h : rest.take n ≠ []) :
    (rest.drop (rest.take n).length).length < rest.length := by
  have hpos : 0 < (rest.take n).length := List.length_pos_of_ne_nil h
  have hle : (rest.take n).length ≤ rest.length := List.length_take_le' n rest
  rw [List.length_drop]
  omega

/-- **A pass that reads** leaves fewer bytes to come. -/
theorem resumes_look (hreads : t.reads) (havailable : l.available ≠ 0) : Resumes l t.rest.length (j.look t l) := by
  unfold Job.look
  rcases hreads with hphase | hphase
  · rw [hphase]
    simp only
    unfold Job.metadataLook
    rw [if_neg havailable]
    simp only
    split_ifs with hnil hmore
    · exact resumes_fail l _ _ _
    · exact fun _ => ⟨rfl, length_drop_read hnil⟩
    · exact resumes_begin rfl (length_drop_read hnil)
  · rw [hphase]
    simp only
    unfold Job.streamingLook
    rw [if_neg havailable]
    simp only
    split_ifs with hnil
    · exact resumes_fail l _ _ _
    · refine resumes_accept fun t' hsame _ => resumes_progress ?_ _
      rw [hsame]
      exact length_drop_read hnil

/-- **A pass that waits** is not fifteen seconds late, or the download fails. -/
theorem waits_look (hreads : t.reads) (havailable : l.available = 0) :
    j.look t l = t ∧ t.stalled l = false ∨ ¬ (j.look t l).reads := by
  have hfailed (t' : Transfer) (error : Bytes) : ¬ (t'.fail error).reads := by
    rintro (hphase | hphase)
    · exact absurd hphase nofun
    · exact absurd hphase nofun
  unfold Job.look
  rcases hreads with hphase | hphase
  · rw [hphase]
    simp only
    unfold Job.metadataLook
    rw [if_pos havailable]
    split_ifs with hstalled
    · exact .inr (hfailed _ _)
    · exact .inl ⟨rfl, Bool.of_not_eq_true hstalled⟩
  · rw [hphase]
    simp only
    unfold Job.streamingLook
    rw [if_pos havailable]
    simp only
    split_ifs with hstalled
    · exact .inr (hfailed _ _)
    · exact .inr (hfailed _ _)
    · exact .inl ⟨rfl, Bool.of_not_eq_true hstalled⟩

/-- What is known of the times while the download reads: `stream` was to be sent from `t₀` on. -/
structure Timely (d t₀ now : ℕ) (stream : Bytes) (t : Transfer) : Prop where
  order : t.lastProgressMs.toNat ≤ now
  patience : now ≤ t.lastProgressMs.toNat + 15000 + d
  progress : t.lastProgressMs.toNat ≤ t₀ + (stream.length - t.rest.length) * (15000 + 2 * d)
  rest : t.rest.length ≤ stream.length

theorem Timely.look {d t₀ now : ℕ} (h : Timely d t₀ now stream t) (hreads : t.reads) (hbegins : now ≤ l.millis.toNat)
    (hlater : l.millis.toNat ≤ l.progressMillis.toNat) (hdone : l.progressMillis.toNat ≤ now + d)
    (hnext : (j.look t l).reads) : Timely d t₀ l.progressMillis.toNat stream (j.look t l) := by
  obtain ⟨horder, hpatience, hprogress, hrest⟩ := h
  by_cases havailable : l.available = 0
  · rcases waits_look hreads havailable (j := j) with ⟨hsame, hstalled⟩ | hnot
    · have helapsed : l.millis.toNat ≤ t.lastProgressMs.toNat + 15000 := by
        unfold Transfer.stalled at hstalled
        rw [Bool.or_eq_false_iff] at hstalled
        have hle : l.millis.toUInt64 - t.lastProgressMs ≤ 15000 := by simpa using hstalled.2
        have hnat : (l.millis.toUInt64 - t.lastProgressMs).toNat ≤ 15000 := UInt64.le_iff_toNat_le.mp hle
        have hbefore : t.lastProgressMs ≤ l.millis.toUInt64 := by
          rw [UInt64.le_iff_toNat_le, UInt32.toNat_toUInt64]
          omega
        rw [UInt64.toNat_sub_of_le _ _ hbefore, UInt32.toNat_toUInt64] at hnat
        omega
      rw [hsame]
      exact ⟨by omega, by omega, hprogress, hrest⟩
    · exact absurd hnext hnot
  · obtain ⟨hlast, hless⟩ := resumes_look hreads havailable hnext
    have hlastNat : (j.look t l).lastProgressMs.toNat = l.progressMillis.toNat := by
      rw [hlast, UInt32.toNat_toUInt64]
    have hbytes : (stream.length - t.rest.length + 1) * (15000 + 2 * d) ≤
        (stream.length - (j.look t l).rest.length) * (15000 + 2 * d) := Nat.mul_le_mul_right _ (by omega)
    rw [Nat.add_mul, Nat.one_mul] at hbytes
    refine ⟨?_, ?_, ?_, by omega⟩
    · rw [hlastNat]
    · rw [hlastNat]
      omega
    · rw [hlastNat]
      omega

/-- After the last chunk, a pass verifies, ends or fails. -/
def Transfer.settles (t : Transfer) : Prop := t.phase = .ended ∨ ∃ error, t.phase = .failed error

theorem settles_verified (hphase : t.phase = .verified) (l : Look) : (j.look t l).settles := by
  unfold Job.look
  rw [hphase]
  simp only
  unfold Job.verifiedLook
  simp only
  split_ifs
  · exact .inr ⟨_, rfl⟩
  · exact .inl rfl

theorem settles_finishing (hphase : t.phase = .finishing) (l : Look) :
    (j.look t l).phase = .verified ∨ (j.look t l).settles := by
  unfold Job.look
  rw [hphase]
  simp only
  unfold Job.finishingLook Job.verify
  simp only
  split_ifs
  · exact .inr (.inr ⟨_, rfl⟩)
  · exact .inr (.inr ⟨_, rfl⟩)
  · exact .inl rfl
  · exact .inr (.inr ⟨_, rfl⟩)
  · exact .inr (.inr ⟨_, rfl⟩)

theorem settled_look (h : t.settles) (l : Look) : j.look t l = t := by
  unfold Job.look
  rcases h with hphase | ⟨error, hphase⟩
  · rw [hphase]
  · rw [hphase]

/-- What does not read any more is over two passes later. -/
theorem settles_of_not_reads (h : ¬ t.reads) (l₁ l₂ : Look) : (j.look (j.look t l₁) l₂).settles := by
  cases hphase : t.phase with
  | metadata => exact absurd (.inl hphase) h
  | streaming => exact absurd (.inr hphase) h
  | finishing =>
    rcases settles_finishing hphase l₁ (j := j) with hverified | hsettles
    · exact settles_verified hverified l₂
    · rw [settled_look hsettles l₂]
      exact hsettles
  | verified =>
    have hsettles := settles_verified hphase l₁ (j := j)
    rw [settled_look hsettles l₂]
    exact hsettles
  | ended =>
    have hsettles : t.settles := .inl hphase
    rw [settled_look hsettles l₁, settled_look hsettles l₂]
    exact hsettles
  | failed error =>
    have hsettles : t.settles := .inr ⟨error, hphase⟩
    rw [settled_look hsettles l₁, settled_look hsettles l₂]
    exact hsettles

theorem not_reads_of_settles (h : t.settles) : ¬ t.reads := by
  rintro (hphase | hphase)
  all_goals
    rcases h with hended | ⟨error, herror⟩
    · exact absurd (hphase.symm.trans hended) nofun
    · exact absurd (hphase.symm.trans herror) nofun

theorem reads_of_look (h : (j.look t l).reads) : t.reads := by
  by_contra hnot
  cases hphase : t.phase with
  | metadata => exact hnot (.inl hphase)
  | streaming => exact hnot (.inr hphase)
  | finishing =>
    rcases settles_finishing hphase l (j := j) with hverified | hsettles
    · rcases h with hnext | hnext
      · exact absurd (hverified.symm.trans hnext) nofun
      · exact absurd (hverified.symm.trans hnext) nofun
    · exact not_reads_of_settles hsettles h
  | verified => exact not_reads_of_settles (settles_verified hphase l) h
  | ended =>
    rw [settled_look (.inl hphase) l] at h
    exact hnot h
  | failed error =>
    rw [settled_look (.inr ⟨error, hphase⟩) l] at h
    exact hnot h

theorem reads_of_run (looks : List Look) {t : Transfer} (h : (j.run t looks).reads) : t.reads := by
  induction looks generalizing t with
  | nil => exact h
  | cons l looks ih => exact reads_of_look (ih h)

theorem timely_run (looks : List Look) {t : Transfer} {d t₀ now : ℕ} (h : Timely d t₀ now stream t)
    (hpaced : Paced d now looks) (hreads : (j.run t looks).reads) :
    Timely d t₀ (time (fun l => l.progressMillis.toNat) now looks) stream (j.run t looks) := by
  induction looks generalizing t now with
  | nil => exact h
  | cons l looks ih =>
    obtain ⟨hbegins, hlater, hdone, hpaced⟩ := hpaced
    have hnext : (j.look t l).reads := reads_of_run looks hreads
    exact ih (h.look (reads_of_look hnext) hbegins hlater hdone hnext) hpaced hreads

/-- While a download reads, not all bytes have come. -/
theorem length_of_reads (h : t.Inv j stream) (hreads : t.reads) :
    stream.length - t.rest.length + 1 ≤ max j.format.metadataBytes j.manifest.sizeBytes.toNat := by
  unfold Transfer.Inv at h
  rcases hreads with hphase | hphase
  · rw [hphase] at h
    obtain ⟨hreading, hshort⟩ := h
    have hsum : t.metadata.length + t.rest.length = stream.length := by rw [← List.length_append, hreading.sent]
    omega
  · rw [hphase] at h
    obtain ⟨hwritten, hlt⟩ := h
    have hsum : t.hashed.length + t.rest.length = stream.length := by rw [← List.length_append, hwritten.sent]
    have hreceived : t.hashed.length < j.manifest.sizeBytes.toNat := by
      rw [← hwritten.received]
      exact UInt32.lt_iff_toNat_lt.mp hlt
    omega

/-- **A download comes to its end.** Whatever the server sends, while the passes come at most `d` milliseconds one after
the other, a download has failed or ended two passes after fifteen seconds, and twice `d`, for each byte. -/
theorem download_bounded (j : Job) (stream : Bytes) (millis : UInt32) (looks : List Look) (d : ℕ)
    (hpaced : Paced d millis.toNat looks) :
    time (fun l => l.progressMillis.toNat) millis.toNat looks ≤
        millis.toNat + max j.format.metadataBytes j.manifest.sizeBytes.toNat * (15000 + 2 * d) ∨
      ∀ l₁ l₂, (j.run (j.start stream millis) (looks ++ [l₁, l₂])).settles := by
  by_cases hreads : (j.run (j.start stream millis) looks).reads
  · left
    have hstart : Timely d millis.toNat millis.toNat stream (j.start stream millis) := by
      have hlast : (j.start stream millis).lastProgressMs.toNat = millis.toNat := UInt32.toNat_toUInt64 millis
      have hrest : (j.start stream millis).rest.length = stream.length := rfl
      refine ⟨?_, ?_, ?_, hrest.le⟩
      · rw [hlast]
      · rw [hlast]
        omega
      · rw [hlast]
        exact Nat.le_add_right _ _
    obtain ⟨-, hpatience, hprogress, -⟩ := timely_run looks hstart hpaced hreads
    have hbytes := Nat.mul_le_mul_right (15000 + 2 * d)
      (length_of_reads (inv_run (inv_start j stream millis) looks) hreads)
    rw [Nat.add_mul, Nat.one_mul] at hbytes
    omega
  · right
    intro l₁ l₂
    have hrun : j.run (j.start stream millis) (looks ++ [l₁, l₂]) =
        j.look (j.look (j.run (j.start stream millis) looks) l₁) l₂ := List.foldl_append
    rw [hrun]
    exact settles_of_not_reads hreads l₁ l₂

/-- A server that sends nothing is waited for no longer than this. -/
theorem download_bounded_silent :
    time (fun l : Look => l.progressMillis.toNat) 0 [sampleLook 0 true, sampleLook 0 true] ≤ 305 * (15000 + 2 * 1000) ∨
      ∀ l₁ l₂, (sampleJob.run (sampleJob.start [] 0) ([sampleLook 0 true, sampleLook 0 true] ++ [l₁, l₂])).settles := by
  have hpaced : Paced 1000 (0 : UInt32).toNat [sampleLook 0 true, sampleLook 0 true] := by
    refine ⟨?_, ?_, ?_, ?_, ?_, ?_, trivial⟩ <;> decide
  rcases download_bounded sampleJob [] 0 [sampleLook 0 true, sampleLook 0 true] 1000 hpaced with hsoon | hsettles
  · refine .inl (hsoon.trans ?_)
    decide
  · exact .inr hsettles

end PowerMonitor.Ota.Download
