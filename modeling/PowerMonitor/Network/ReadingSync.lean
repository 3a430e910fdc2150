import PowerMonitor.Config.Cursors
import PowerMonitor.Lib.Delivery
import PowerMonitor.Network.ReadingServer
import PowerMonitor.Storage.Acknowledgement

/-! # Synchronising the readings

The device sends its readings page by page and keeps, in its preferences, up to where the server has acknowledged them.
The world is the storage of the device in a run in which nothing fails, the task that synchronises, the server of the
simulator, and what is on its way between them: requests and responses may be lost, kept back, repeated and overtaken,
and the device may restart between any two steps.

* `Invariant.step`: the device is the sender and the server the receiver of a delivery.
* `acknowledged_delivered`: up to the cursor the server has the readings as the device stored them.
* `never_rejected`: the server never finds two readings of one sequence that differ. -/

namespace PowerMonitor.Network.ReadingSync

open PowerMonitor.Lib PowerMonitor.Lib.Binary PowerMonitor.Lib.Json PowerMonitor.Config.Cursors
open PowerMonitor.Storage.Reading PowerMonitor.Storage.ReadPage PowerMonitor.Storage.PageSpec
open PowerMonitor.Storage.SdStorage PowerMonitor.Storage.Intact PowerMonitor.Storage.Counting
open PowerMonitor.Storage.Runs (State Blank Kept moves_of_step assigned_sequence mem_heldWith kept_blank)
open PowerMonitor.Storage.Media (recordFiles)
open PowerMonitor.Storage.Acknowledgement PowerMonitor.Network.ReadingServer

/-! ### Policies -/

inductive AcknowledgementDisposition
  | invalid | current | advance | advanceSequenceFloor
  deriving DecidableEq, Repr

def classifyAcknowledgement (currentAcknowledgement newestStoredSequence serverAcknowledgement : ℕ) :
    AcknowledgementDisposition :=
  if serverAcknowledgement < currentAcknowledgement then .invalid
  else if serverAcknowledgement > newestStoredSequence then .advanceSequenceFloor
  else if serverAcknowledgement = currentAcknowledgement then .current
  else .advance

structure SequenceCursor where
  highestContiguousAcceptedSequence : ℕ
  maximumSeenSequence : ℕ
  nextSequenceFloor : ℕ

def sequenceCursorContractValid (topLevelAcknowledgement : ℕ) (cursor : SequenceCursor) : Bool :=
  topLevelAcknowledgement = cursor.highestContiguousAcceptedSequence &&
    cursor.maximumSeenSequence ≥ cursor.highestContiguousAcceptedSequence &&
    cursor.maximumSeenSequence ≠ 2 ^ 64 - 1 && cursor.nextSequenceFloor = cursor.maximumSeenSequence + 1

/-! ### Readings on the wire -/

def kMaximumEncodedRecordBytes : ℕ := 8 * 1024

/-- A reading as it is sent; `M` is what is sent of its measurements. -/
structure WireReading (M : Type) where
  dataGeneration : UInt64
  sequence : UInt64
  bootId : Bytes
  intervalStart : Bytes
  intervalEnd : Bytes
  timeTrusted : Bool
  measurements : M
  deriving DecidableEq

/-- A batch as the device sends it. -/
abbrev Batch (M : Type) := ReadingBatch (WireReading M)

/-- The sequence that the server reads. -/
def WireReading.number {M : Type} (r : WireReading M) : ℕ := r.sequence.toNat

/-- The translation of a stored record; `measurements` reads the rest of its text. -/
def append {M : Type} (j : JsonLibrary) (measurements : Bytes → M) (encoded : Bytes) : Option (WireReading M) :=
  if encoded = [] ∨ kMaximumEncodedRecordBytes < encoded.length then none
  else
    match j.deserialize encoded with
    | none => none
    | some source =>
      if !(source (ascii "sequence")).isUnsigned then none
      else
        match (source (ascii "boot_id")).text, (source (ascii "start_utc")).text, (source (ascii "end_utc")).text with
        | some bootId, some startUtc, some endUtc => some {
            dataGeneration := (source (ascii "data_generation")).unsignedOr 0
            sequence := (source (ascii "sequence")).asUnsigned
            bootId := bootId
            intervalStart := startUtc
            intervalEnd := endUtc
            timeTrusted := (source (ascii "time_trusted")).booleanOr false
            measurements := measurements encoded }
        | _, _, _ => none

section Append

variable {M : Type} {j : JsonLibrary} {measurements : Bytes → M}

/-- What is sent of a stored record has its sequence. -/
theorem append_number (hj : j.Lawful) {r : IntervalRecord} {v : WireReading M}
    (h : append j measurements (serializeRecord j r) = some v) : v.number = r.sequence.toNat := by
  obtain ⟨document, hd, hsequence, -⟩ := deserialize_serializeRecord hj r
  unfold append at h
  split_ifs at h
  rw [hd] at h
  simp only at h
  split_ifs at h
  split at h
  · rw [← Option.some.inj h]
    exact congrArg UInt64.toNat hsequence
  · cases h

end Append

/-! ### The device -/

/-- The page that the storage task reads for the task that synchronises. -/
inductive PageJob
  | none
  | queued (query : HistoryQuery)
  | loaded (page : HistoryPage)

structure Device where
  storage : State := {}
  deviceId : Bytes := []
  dataGeneration : UInt64 := 0
  serverAckSequence : ℕ := 0
  serverMaximumSeenSequence : ℕ := 0
  readingPage : PageJob := .none

/-- The first call of `pushReadings` asks for a page, unless a reset holds the readings. -/
def Device.queueReadings (d : Device) (frozen : Bool) : Device :=
  if frozen then { d with readingPage := .none }
  else
    match d.readingPage with
    | .none => { d with readingPage := .queued (syncQuery (UInt64.ofNat d.serverAckSequence)) }
    | _ => d

/-- The storage task reads the page. -/
def Device.loadPage (j : JsonLibrary) (d : Device) : Device :=
  match d.readingPage with
  | .queued query =>
    { d with readingPage := .loaded (readPage j d.storage.card {} d.storage.ram.health query) }
  | _ => d

/-- The batch of a page. -/
def Device.batchOf {M : Type} (j : JsonLibrary) (measurements : Bytes → M) (d : Device) (page : HistoryPage) :
    Option (Batch M) :=
  if !page.ok || (page.records.isEmpty && page.unavailableSequenceRanges.isEmpty) then none
  else (page.records.mapM (append j measurements)).map fun readings => {
    deviceId := d.deviceId
    dataGeneration := d.dataGeneration
    unavailableSequenceRanges := page.unavailableSequenceRanges
    readings := readings }

/-- A later call takes the page and makes the request, if there is one. -/
def Device.takePage {M : Type} (j : JsonLibrary) (measurements : Bytes → M) (d : Device) (frozen : Bool) :
    Device × Option (Batch M) :=
  match d.readingPage with
  | .loaded page => ({ d with readingPage := .none }, if frozen then none else d.batchOf j measurements page)
  | _ => (d, none)

/-- The response to a batch; `frozen` tells whether a reset holds the cursor, and `written` whether the preferences
accept it. -/
def Device.applyBatch (d : Device) (response : Response) (frozen written : Bool) : Device :=
  match response with
  | .problem _ _ => d
  | .result _ _ rejected acknowledgement _ =>
    if 2 ^ 64 ≤ acknowledgement then d
    else if rejected ≠ [] then d
    else if frozen then d
    else if acknowledgement = d.serverAckSequence then d
    else if acknowledgementValid acknowledgement d.serverAckSequence d.storage.ram.health.newestSyncableSequence then
      { d with serverAckSequence := (setServerAckSequence d.serverAckSequence acknowledgement written).1 }
    else d

/-- What a heartbeat tells of the cursor. -/
structure HeartbeatResponse where
  highestContiguousAcceptedSequence : ℕ
  sequenceCursor : Option SequenceCursor := none

/-- The response to a heartbeat. -/
def Device.applyHeartbeat (d : Device) (response : HeartbeatResponse) (frozen ackWritten maximumWritten : Bool) :
    Device :=
  let acknowledgement := response.highestContiguousAcceptedSequence
  if 2 ^ 64 ≤ acknowledgement then d
  else
    let valid := response.sequenceCursor.all fun cursor =>
      decide (cursor.highestContiguousAcceptedSequence < 2 ^ 64 ∧ cursor.maximumSeenSequence < 2 ^ 64 ∧
        cursor.nextSequenceFloor < 2 ^ 64) &&
        sequenceCursorContractValid acknowledgement cursor
    let maximumSeen := (response.sequenceCursor.map SequenceCursor.maximumSeenSequence).getD acknowledgement
    let regressed := !valid ||
      classifyAcknowledgement d.serverAckSequence d.storage.ram.health.newestSequence acknowledgement = .invalid ||
      maximumSeen < d.serverMaximumSeenSequence
    if regressed || frozen then d
    else { d with
      serverAckSequence := (setServerAckSequence d.serverAckSequence acknowledgement ackWritten).1
      serverMaximumSeenSequence :=
        (setServerMaximumSeenSequence d.serverMaximumSeenSequence maximumSeen maximumWritten).1 }

/-! ### The world -/

structure World (M : Type) where
  device : Device := {}
  server : DeviceState (WireReading M) := {}
  requests : List (Batch M) := []
  responses : List Response := []
  heartbeats : List HeartbeatResponse := []

variable {M : Type}

/-- One step of the device, of the server or of what is between them. The page is forgotten when the device restarts or
when the storage task no longer has it. -/
inductive Step [DecidableEq M] (j : JsonLibrary) (fingerprint : Bytes) (measurements : Bytes → M) (w : World M) :
    World M → Prop
  | storage {s' : State} (h : PowerMonitor.Storage.Runs.Step j fingerprint w.device.storage s') :
      Step j fingerprint measurements w { w with device := { w.device with storage := s' } }
  | forget : Step j fingerprint measurements w { w with device := { w.device with readingPage := .none } }
  | queue (frozen : Bool) : Step j fingerprint measurements w { w with device := w.device.queueReadings frozen }
  | load : Step j fingerprint measurements w { w with device := w.device.loadPage j }
  | post (frozen : Bool) : Step j fingerprint measurements w { w with
      device := (w.device.takePage j measurements frozen).1
      requests := w.requests ++ (w.device.takePage j measurements frozen).2.toList }
  | serve (batch : Batch M) (h : batch ∈ w.requests) : Step j fingerprint measurements w { w with
      server := (w.server.receive WireReading.number w.device.deviceId batch).1
      responses := w.responses ++ [(w.server.receive WireReading.number w.device.deviceId batch).2] }
  | heartbeat : Step j fingerprint measurements w { w with
      heartbeats := w.heartbeats ++ [{ highestContiguousAcceptedSequence := w.server.acknowledgedSequence }] }
  | lose (requests : List (Batch M)) (responses : List Response) (heartbeats : List HeartbeatResponse)
      (hrequests : requests ⊆ w.requests) (hresponses : responses ⊆ w.responses)
      (hheartbeats : heartbeats ⊆ w.heartbeats) :
      Step j fingerprint measurements w
        { w with requests := requests, responses := responses, heartbeats := heartbeats }
  | applyBatch (response : Response) (h : response ∈ w.responses) (frozen written : Bool) :
      Step j fingerprint measurements w { w with device := w.device.applyBatch response frozen written }
  | applyHeartbeat (response : HeartbeatResponse) (h : response ∈ w.heartbeats)
      (frozen ackWritten maximumWritten : Bool) :
      Step j fingerprint measurements w
        { w with device := w.device.applyHeartbeat response frozen ackWritten maximumWritten }

/-- The worlds of all runs from a blank card. -/
inductive Reached [DecidableEq M] (j : JsonLibrary) (fingerprint : Bytes) (measurements : Bytes → M) : World M → Prop
  | start (card : PowerMonitor.Storage.Media.Card) (deviceId : Bytes) (h : Blank card) :
      Reached j fingerprint measurements { device := { storage := { card := card }, deviceId := deviceId } }
  | step {w w' : World M} (h : Reached j fingerprint measurements w) (hstep : Step j fingerprint measurements w w') :
      Reached j fingerprint measurements w'

/-- The device reads a page, sends it and applies the answer; nothing is lost. -/
def World.exchange [DecidableEq M] (j : JsonLibrary) (measurements : Bytes → M) (w : World M) : World M :=
  let d := (w.device.queueReadings false).loadPage j
  match d.takePage j measurements false with
  | (d, none) => { w with device := d }
  | (d, some batch) =>
    let answer := w.server.receive WireReading.number d.deviceId batch
    { w with
      device := d.applyBatch answer.2 false true
      server := answer.1
      requests := w.requests ++ [batch]
      responses := w.responses ++ [answer.2] }

/-! ### What every run keeps -/

variable {j : JsonLibrary} {fingerprint : Bytes} {measurements : Bytes → M} {w w' : World M}
  {held : Bytes → List IntervalRecord} {log : ℕ → Option (WireReading M)}

/-- No two stored records have one sequence. -/
def Unique (held : Bytes → List IntervalRecord) : Prop :=
  ∀ x r x' r', r ∈ held x → r' ∈ held x' → r.sequence = r'.sequence → r = r'

/-- The log of the readings that the device can send. -/
def Logs (j : JsonLibrary) (measurements : Bytes → M) (held : Bytes → List IntervalRecord)
    (log : ℕ → Option (WireReading M)) : Prop :=
  ∀ n v, log n = some v ↔ ∃ x, ∃ r ∈ held x, syncableRecord r = true ∧ r.sequence.toNat = n ∧
    append j measurements (serializeRecord j r) = some v

def sequenced (readings : List (WireReading M)) : List (ℕ × WireReading M) :=
  readings.map fun v => (WireReading.number v, v)

/-- The device as the sender and the server as the receiver. -/
def World.delivery (w : World M) (log : ℕ → Option (WireReading M)) : Delivery.State (WireReading M) where
  log := log
  batches := w.requests.map fun batch => sequenced batch.readings
  kept := w.server.get
  confirmed := w.server.acknowledgedSequence
  answers := w.responses.filterMap acknowledgementOf ++
    w.heartbeats.map HeartbeatResponse.highestContiguousAcceptedSequence
  cursor := w.device.serverAckSequence

/-- The records of a page are stored. -/
def Genuine (j : JsonLibrary) (held : Bytes → List IntervalRecord) (page : HistoryPage) : Prop :=
  page.ok = true → ∀ p ∈ page.records, ∃ x, ∃ r ∈ held x, syncableRecord r = true ∧ p = serializeRecord j r

structure Invariant (j : JsonLibrary) (measurements : Bytes → M) (w : World M) (held : Bytes → List IntervalRecord)
    (log : ℕ → Option (WireReading M)) : Prop where
  kept : Kept j w.device.storage held
  synced : Synced w.device.storage held
  unique : Unique held
  logs : Logs j measurements held log
  page : ∀ page, w.device.readingPage = .loaded page → Genuine j held page
  query : ∀ query, w.device.readingPage = .queued query → query.requireSyncable = true
  delivery : Delivery.Inv (w.delivery log)
  agreed : ∀ accepted duplicates rejected acknowledgement missing,
    .result accepted duplicates rejected acknowledgement missing ∈ w.responses → rejected = []

/-- The readings make a log. -/
theorem exists_logs (hunique : Unique held) : ∃ log, Logs j measurements held log := by
  classical
  refine ⟨fun n => if h : ∃ v x, ∃ r ∈ held x, syncableRecord r = true ∧ r.sequence.toNat = n ∧
    append j measurements (serializeRecord j r) = some v then some h.choose else none, fun n v => ?_⟩
  constructor
  · intro h
    dsimp only at h
    split_ifs at h with hex
    rw [← Option.some.inj h]
    exact hex.choose_spec
  · intro h
    have hex : ∃ v x, ∃ r ∈ held x, syncableRecord r = true ∧ r.sequence.toNat = n ∧
        append j measurements (serializeRecord j r) = some v := ⟨v, h⟩
    simp only [dif_pos hex]
    -- the record of a sequence is unique
    obtain ⟨x, r, hr, -, hn, hv⟩ := h
    obtain ⟨x', r', hr', -, hn', hv'⟩ := hex.choose_spec
    have hsame := hunique x r x' r' hr hr' (UInt64.toNat_inj.mp (hn.trans hn'.symm))
    rw [hsame] at hv
    exact hv'.symm.trans hv

/-! ### The storage -/

/-- What is stored stays, and nothing is stored twice under one sequence. -/
theorem storage_step (hj : j.Lawful) {s s' : State} (hk : Kept j s held) (hs : Synced s held) (hunique : Unique held)
    (hstep : PowerMonitor.Storage.Runs.Step j fingerprint s s') :
    ∃ held', Kept j s' held' ∧ Synced s' held' ∧ Unique held' ∧ ∀ x, ∀ r ∈ held x, r ∈ held' x := by
  refine hk.moves (P := fun s' held' => Synced s' held' ∧ Unique held' ∧ ∀ x, ∀ r ∈ held x, r ∈ held' x) hj
    (fun s1 s2 held' hk' h hchange => ⟨h.1.change hj hk' hchange, h.2⟩) ?_ ⟨hs, hunique, fun x r hr => hr⟩
    (moves_of_step hj hk.laidOut hk.unrepaired hk.next hstep)
  rintro s1 held' r card' hk' ⟨hs', hunique', hsub⟩ haccepts hext
  have hsequence := assigned_sequence hk'.next r
  have hfresh : ∀ x, ∀ t ∈ held' x, t.sequence ≠ (assigned s1.ram r).sequence := by
    intro x t ht heq
    have hlt := hk'.fresh haccepts.2.1 _ ⟨x, t, ht, rfl⟩
    rw [heq, hsequence] at hlt
    exact absurd hlt (lt_irrefl _)
  refine ⟨hs'.append hk' haccepts hext, fun x t x' t' ht ht' heq => ?_,
    fun x t ht => mem_heldWith.mpr (Or.inl (hsub x t ht))⟩
  rcases mem_heldWith.mp ht with ht | ⟨-, rfl⟩
  · rcases mem_heldWith.mp ht' with ht' | ⟨-, rfl⟩
    · exact hunique' x t x' t' ht ht' heq
    · exact absurd heq (hfresh x t ht)
  · rcases mem_heldWith.mp ht' with ht' | ⟨-, rfl⟩
    · exact absurd heq.symm (hfresh x' t' ht')
    · rfl

/-- A page holds stored records. -/
theorem readPage_genuine (hj : j.Lawful) {s : State} (hk : Kept j s held) (hs : Synced s held) {query : HistoryQuery}
    (hsync : query.requireSyncable = true) : Genuine j held (readPage j s.card {} s.ram.health query) := by
  intro hok p hp
  obtain ⟨-, es, hvisible, -, hpage⟩ := (readPage_ok_iff hsync _).mp ⟨rfl, hok⟩
  rw [hpage, (pageOf_eq s.ram.health hsync es).1] at hp
  obtain ⟨e, he, rfl⟩ := List.mem_map.mp hp
  obtain ⟨hwanted, x, r, hr, rfl⟩ :=
    (mem_visible_iff hj hk hs hvisible e).mp (mem_candidatesOf (List.mem_filter.mp he).1)
  exact ⟨x, r, hr, ((wants_iff hsync _).mp hwanted).2.2.1, rfl⟩

/-! ### One step -/

/-- The log only grows. -/
theorem Logs.mono {held' : Bytes → List IntervalRecord} {log' : ℕ → Option (WireReading M)}
    (hlogs : Logs j measurements held log) (hlogs' : Logs j measurements held' log')
    (hsub : ∀ x, ∀ r ∈ held x, r ∈ held' x) (n : ℕ) (v : WireReading M) (h : log n = some v) : log' n = some v := by
  obtain ⟨x, r, hr, hread⟩ := (hlogs n v).mp h
  exact (hlogs' n v).mpr ⟨x, r, hsub x r hr, hread⟩

/-- A list of which all elements are translated, element for element. -/
theorem mapM_eq_some_iff {α β : Type} {f : α → Option β} {l : List α} {l' : List β} :
    l.mapM f = some l' ↔ l.map f = l'.map some := by
  induction l generalizing l' with
  | nil => cases l' <;> simp
  | cons a l ih =>
    rw [List.mapM_cons]
    cases l' with
    | nil => simp [Option.bind_eq_some_iff]
    | cons b l' => simp [Option.bind_eq_some_iff, ih]

/-- The readings of a batch are in the log. -/
theorem batch_logged (hj : j.Lawful) (hlogs : Logs j measurements held log) {d : Device} {page : HistoryPage}
    (hpage : Genuine j held page) {batch : Batch M} (hbatch : d.batchOf j measurements page = some batch) :
    ∀ e ∈ sequenced batch.readings, log e.1 = some e.2 := by
  unfold Device.batchOf at hbatch
  split_ifs at hbatch with hskip
  obtain ⟨readings, hreadings, rfl⟩ := Option.map_eq_some_iff.mp hbatch
  have hok : page.ok = true := by
    simp only [Bool.or_eq_true, Bool.not_eq_true', not_or, Bool.not_eq_false] at hskip
    exact hskip.1
  intro e he
  obtain ⟨v, hv, rfl⟩ := List.mem_map.mp he
  have htranslated : some v ∈ page.records.map (append j measurements) := by
    rw [mapM_eq_some_iff.mp hreadings]
    exact List.mem_map_of_mem hv
  obtain ⟨p, hp, hread⟩ := List.mem_map.mp htranslated
  obtain ⟨x, r, hr, hsyncable, rfl⟩ := hpage hok p hp
  exact (hlogs _ v).mpr ⟨x, r, hr, hsyncable, (append_number hj hread).symm, hread⟩

/-- The cursor stays or goes to the acknowledgement. -/
theorem raiseCursor_cases (current sequence : ℕ) (written : Bool) :
    (raiseCursor current sequence written).1 = current ∨ (raiseCursor current sequence written).1 = sequence := by
  unfold raiseCursor
  split_ifs
  · exact .inl rfl
  · exact .inl rfl
  · exact .inl rfl
  · exact .inr rfl

/-- A response moves the cursor at most to what it acknowledges. -/
theorem applyBatch_cursor (d : Device) (response : Response) (frozen written : Bool) :
    (d.applyBatch response frozen written).serverAckSequence = d.serverAckSequence ∨
      acknowledgementOf response = some (d.applyBatch response frozen written).serverAckSequence := by
  unfold Device.applyBatch
  split
  · exact .inl rfl
  · split_ifs
    any_goals exact .inl rfl
    rcases raiseCursor_cases d.serverAckSequence _ written with hstay | hmove
    · exact .inl hstay
    · exact .inr (congrArg some hmove.symm)

theorem applyHeartbeat_cursor (d : Device) (response : HeartbeatResponse) (frozen ackWritten maximumWritten : Bool) :
    let d' := d.applyHeartbeat response frozen ackWritten maximumWritten
    d'.serverAckSequence = d.serverAckSequence ∨
      d'.serverAckSequence = response.highestContiguousAcceptedSequence := by
  simp only [Device.applyHeartbeat]
  split_ifs
  · exact .inl rfl
  · exact .inl rfl
  · exact raiseCursor_cases d.serverAckSequence _ ackWritten

theorem applyBatch_eq (d : Device) (response : Response) (frozen written : Bool) :
    d.applyBatch response frozen written =
      { d with serverAckSequence := (d.applyBatch response frozen written).serverAckSequence } := by
  unfold Device.applyBatch
  split
  · rfl
  · split_ifs
    all_goals rfl

theorem applyHeartbeat_eq (d : Device) (response : HeartbeatResponse) (frozen ackWritten maximumWritten : Bool) :
    let d' := d.applyHeartbeat response frozen ackWritten maximumWritten
    d' = { d with
      serverAckSequence := d'.serverAckSequence
      serverMaximumSeenSequence := d'.serverMaximumSeenSequence } := by
  simp only [Device.applyHeartbeat]
  split_ifs
  all_goals rfl

theorem takePage_cases (d : Device) (frozen : Bool) :
    d.takePage j measurements frozen = (d, none) ∨
      ∃ page, d.readingPage = .loaded page ∧ d.takePage j measurements frozen =
        ({ d with readingPage := .none }, if frozen then none else d.batchOf j measurements page) := by
  unfold Device.takePage
  split
  · next page hpage => exact .inr ⟨page, hpage, rfl⟩
  · exact .inl rfl

/-- What leaves the readings and the cursor alone is no step of the delivery. -/
theorem Invariant.device (h : Invariant j measurements w held log) {d : Device}
    (hstorage : d.storage = w.device.storage)
    (hcursor : d.serverAckSequence = w.device.serverAckSequence)
    (hpage : ∀ page, d.readingPage = .loaded page → Genuine j held page)
    (hquery : ∀ query, d.readingPage = .queued query → query.requireSyncable = true) :
    Invariant j measurements { w with device := d } held log where
  kept := hstorage ▸ h.kept
  synced := hstorage ▸ h.synced
  unique := h.unique
  logs := h.logs
  page := hpage
  query := hquery
  delivery := by
    have hsame : World.delivery { w with device := d } log = w.delivery log := by
      simp only [World.delivery, hcursor]
    rw [hsame]
    exact h.delivery
  agreed := h.agreed

/-- A batch of the device. -/
theorem Invariant.post (h : Invariant j measurements w held log) {batch : Batch M}
    (hbatch : ∀ e ∈ sequenced batch.readings, log e.1 = some e.2) :
    Invariant j measurements { w with requests := w.requests ++ [batch] } held log := by
  refine { h with delivery := Delivery.Step.inv ?_ h.delivery }
  refine ⟨fun _ _ => id, fun readings hreadings => ?_, fun _ _ => id, fun _ _ => Or.inl, le_rfl,
    fun n h1 h2 => absurd h2 (not_le.mpr h1), fun _ => Or.inl, Or.inl rfl⟩
  simp only [World.delivery, List.map_append, List.mem_append, List.map_cons, List.map_nil,
    List.mem_singleton] at hreadings
  rcases hreadings with hold | rfl
  · exact .inl hold
  · exact .inr hbatch

/-- What is kept back or lost. -/
theorem Invariant.lose (h : Invariant j measurements w held log) {requests : List (Batch M)}
    {responses : List Response} {heartbeats : List HeartbeatResponse} (hrequests : requests ⊆ w.requests)
    (hresponses : responses ⊆ w.responses) (hheartbeats : heartbeats ⊆ w.heartbeats) :
    Invariant j measurements { w with requests := requests, responses := responses, heartbeats := heartbeats }
      held log := by
  refine { h with
    delivery := Delivery.Step.inv ?_ h.delivery
    agreed := fun _ _ _ _ _ hresponse => h.agreed _ _ _ _ _ (hresponses hresponse) }
  refine ⟨fun _ _ => id, fun readings hreadings => .inl ?_, fun _ _ => id, fun _ _ => Or.inl, le_rfl,
    fun n h1 h2 => absurd h2 (not_le.mpr h1), fun a ha => .inl ?_, Or.inl rfl⟩
  · exact List.map_subset _ hrequests hreadings
  · rcases List.mem_append.mp ha with ha | ha
    · exact List.mem_append_left _ (List.filterMap_subset _ hresponses ha)
    · exact List.mem_append_right _ (List.map_subset _ hheartbeats ha)

/-- A batch reaches the server. -/
theorem Invariant.serve [DecidableEq M] (h : Invariant j measurements w held log) {batch : Batch M}
    (hbatch : batch ∈ w.requests) :
    Invariant j measurements { w with
      server := (w.server.receive WireReading.number w.device.deviceId batch).1
      responses := w.responses ++ [(w.server.receive WireReading.number w.device.deviceId batch).2] } held log := by
  have hreadings : sequenced batch.readings ∈ (w.delivery log).batches := List.mem_map_of_mem hbatch
  obtain ⟨hmono, hfull, hanswer⟩ := receive_acknowledged WireReading.number w.server w.device.deviceId batch
  refine { h with
    delivery := Delivery.Step.inv ?_ h.delivery
    agreed := fun accepted duplicates rejected acknowledgement missing hresponse => ?_ }
  · refine ⟨fun _ _ => id, fun _ => Or.inl, fun n v => (receive_kept n v).1, fun n v hv => ?_, hmono,
      fun n h1 h2 => Option.isSome_iff_exists.mp (hfull n h1 h2), fun a ha => ?_, Or.inl rfl⟩
    · refine ((receive_kept n v).2 hv).imp_right fun ⟨v', hv', heq⟩ => ⟨_, hreadings, ?_⟩
      rw [← heq]
      exact List.mem_map_of_mem hv'
    · simp only [World.delivery, List.filterMap_append, List.append_assoc, List.mem_append] at ha ⊢
      rcases ha with ha | ha | ha
      · exact .inl (.inl ha)
      · obtain ⟨response, hresponse, hack⟩ := List.mem_filterMap.mp ha
        rw [List.mem_singleton.mp hresponse] at hack
        exact .inr (hanswer a hack).le
      · exact .inl (.inr ha)
  · rcases List.mem_append.mp hresponse with hold | hnew
    · exact h.agreed _ _ _ _ _ hold
    · refine receive_rejected h.delivery.kept (fun v hv => ?_) (List.mem_singleton.mp hnew).symm
      exact h.delivery.batches _ hreadings _ (List.mem_map_of_mem hv)

/-- The server answers a heartbeat. -/
theorem Invariant.heartbeat (h : Invariant j measurements w held log) :
    Invariant j measurements { w with
      heartbeats := w.heartbeats ++ [{ highestContiguousAcceptedSequence := w.server.acknowledgedSequence }] }
      held log := by
  refine { h with delivery := Delivery.Step.inv ?_ h.delivery }
  refine ⟨fun _ _ => id, fun _ => Or.inl, fun _ _ => id, fun _ _ => Or.inl, le_rfl,
    fun n h1 h2 => absurd h2 (not_le.mpr h1), fun a ha => ?_, Or.inl rfl⟩
  simp only [World.delivery, List.map_append, ← List.append_assoc] at ha
  rcases List.mem_append.mp ha with ha | ha
  · exact .inl ha
  · exact .inr (List.mem_singleton.mp ha).le

/-- An answer moves the cursor. -/
theorem Invariant.cursor (h : Invariant j measurements w held log) {d : Device}
    (hstorage : d.storage = w.device.storage)
    (hpage : d.readingPage = w.device.readingPage)
    (hcursor : d.serverAckSequence = w.device.serverAckSequence ∨
      d.serverAckSequence ∈ (w.delivery log).answers) :
    Invariant j measurements { w with device := d } held log where
  kept := hstorage ▸ h.kept
  synced := hstorage ▸ h.synced
  unique := h.unique
  logs := h.logs
  page := hpage ▸ h.page
  query := hpage ▸ h.query
  delivery := by
    have hstep : Delivery.Step (w.delivery log) (World.delivery { w with device := d } log) :=
      { log := fun _ _ => id, batches := fun _ => Or.inl, keep := fun _ _ => id, kept := fun _ _ => Or.inl
        confirmed := le_rfl, full := fun n h1 h2 => absurd h2 (not_le.mpr h1), answers := fun _ => Or.inl
        cursor := hcursor }
    exact hstep.inv h.delivery
  agreed := h.agreed

/-- **What one step keeps.** -/
theorem Invariant.step [DecidableEq M] (hj : j.Lawful) (h : Invariant j measurements w held log)
    (hstep : Step j fingerprint measurements w w') : ∃ held' log', Invariant j measurements w' held' log' := by
  cases hstep with
  | storage hs =>
    obtain ⟨held', hk, hsync, hunique, hsub⟩ := storage_step hj h.kept h.synced h.unique hs
    obtain ⟨log', hlogs⟩ := exists_logs  hunique
    have hlog : ∀ n v, log n = some v → log' n = some v := h.logs.mono hlogs hsub
    refine ⟨held', log', ⟨hk, hsync, hunique, hlogs, fun page hpage hok p hp => ?_, h.query, ?_, h.agreed⟩⟩
    · obtain ⟨x, r, hr, hread⟩ := h.page page hpage hok p hp
      exact ⟨x, r, hsub x r hr, hread⟩
    · have hstep : Delivery.Step (w.delivery log) (w.delivery log') :=
        { log := hlog, batches := fun _ => Or.inl, keep := fun _ _ => id, kept := fun _ _ => Or.inl
          confirmed := le_rfl, full := fun n h1 h2 => absurd h2 (not_le.mpr h1), answers := fun _ => Or.inl
          cursor := Or.inl rfl }
      exact hstep.inv h.delivery
  | forget => exact ⟨held, log, h.device rfl rfl (fun _ hpage => by cases hpage) (fun _ hquery => by cases hquery)⟩
  | queue frozen =>
    refine ⟨held, log, ?_⟩
    unfold Device.queueReadings
    split_ifs
    · exact h.device rfl rfl (fun _ hpage => by cases hpage) (fun _ hquery => by cases hquery)
    · split
      · refine h.device rfl rfl (fun _ hpage => by cases hpage) (fun query hquery => ?_)
        rw [PageJob.queued.injEq] at hquery
        rw [← hquery]
        rfl
      · exact h
  | load =>
    refine ⟨held, log, ?_⟩
    unfold Device.loadPage
    split
    · next query hquery =>
      refine h.device rfl rfl (fun page hpage => ?_) (fun _ hquery => by cases hquery)
      rw [PageJob.loaded.injEq] at hpage
      rw [← hpage]
      exact readPage_genuine hj h.kept h.synced (h.query query hquery)
    · exact h
  | post frozen =>
    refine ⟨held, log, ?_⟩
    obtain htake | ⟨page, hpage, htake⟩ := takePage_cases w.device frozen
    · rw [htake]
      simp only [Option.toList_none, List.append_nil]
      exact h
    · rw [htake]
      have hdevice : Invariant j measurements { w with device := { w.device with readingPage := .none } } held log :=
        h.device rfl rfl (fun _ hpage => by cases hpage) (fun _ hquery => by cases hquery)
      cases hbatch : (if frozen then none else w.device.batchOf j measurements page) with
      | none =>
        simp only [Option.toList_none, List.append_nil]
        exact hdevice
      | some batch =>
        have hmade : w.device.batchOf j measurements page = some batch := by
          split_ifs at hbatch
          exact hbatch
        exact hdevice.post (batch_logged hj h.logs (h.page page hpage) hmade)
  | serve batch hbatch => exact ⟨held, log, h.serve hbatch⟩
  | heartbeat => exact ⟨held, log, h.heartbeat⟩
  | lose requests responses heartbeats hrequests hresponses hheartbeats =>
    exact ⟨held, log, h.lose hrequests hresponses hheartbeats⟩
  | applyBatch response hresponse frozen written =>
    have hcursor := applyBatch_cursor w.device response frozen written
    rw [applyBatch_eq]
    refine ⟨held, log, h.cursor rfl rfl (hcursor.imp_right fun hack => ?_)⟩
    exact List.mem_append_left _ (List.mem_filterMap.mpr ⟨response, hresponse, hack⟩)
  | applyHeartbeat response hresponse frozen ackWritten maximumWritten =>
    have hcursor := applyHeartbeat_cursor w.device response frozen ackWritten maximumWritten
    rw [applyHeartbeat_eq]
    refine ⟨held, log, h.cursor rfl rfl (hcursor.imp_right fun hack => ?_)⟩
    exact List.mem_append_right _ (List.mem_map.mpr ⟨response, hresponse, hack.symm⟩)

theorem invariant_start {card : PowerMonitor.Storage.Media.Card} (deviceId : Bytes) (h : Blank card) :
    ∃ log, Invariant j measurements { device := { storage := { card := card }, deviceId := deviceId } }
      (fun _ => []) log := by
  obtain ⟨log, hlogs⟩ : ∃ log, Logs j measurements (fun _ => []) log :=
    exists_logs fun x r x' r' hr => absurd hr List.not_mem_nil
  exact ⟨log, {
    kept := kept_blank h
    synced := ⟨fun _ => h.sidecar _, fun hne => absurd rfl hne⟩
    unique := fun x r x' r' hr => absurd hr List.not_mem_nil
    logs := hlogs
    page := fun _ hpage => by cases hpage
    query := fun _ hquery => by cases hquery
    delivery := ⟨fun _ hb => absurd hb List.not_mem_nil, fun _ _ hv => (by cases hv),
      fun n hpos hn => absurd hn (not_le.mpr hpos), fun _ ha => absurd ha List.not_mem_nil, le_rfl⟩
    agreed := fun _ _ _ _ _ hresponse => absurd hresponse List.not_mem_nil }⟩

variable [DecidableEq M]

/-- **What every run keeps.** -/
theorem Reached.invariant (hj : j.Lawful) (h : Reached j fingerprint measurements w) :
    ∃ held log, Invariant j measurements w held log := by
  induction h with
  | start card deviceId hblank => exact ⟨_, invariant_start deviceId hblank⟩
  | step _ hstep ih =>
    obtain ⟨held, log, hinv⟩ := ih
    exact hinv.step hj hstep

/-- An exchange is a run. -/
theorem exchange_reached (h : Reached j fingerprint measurements w) :
    Reached j fingerprint measurements (w.exchange j measurements) := by
  have hloaded := (h.step (.queue false)).step .load
  have hposted := hloaded.step (.post false)
  rcases htake : ((w.device.queueReadings false).loadPage j).takePage j measurements false with ⟨d, _ | batch⟩
  · simp only [htake, Option.toList_none, List.append_nil] at hposted
    simp only [World.exchange, htake]
    exact hposted
  · simp only [htake, Option.toList_some] at hposted
    simp only [World.exchange, htake]
    have hserved := hposted.step (.serve batch (List.mem_append_right _ List.mem_cons_self))
    exact hserved.step (.applyBatch _ (List.mem_append_right _ List.mem_cons_self) false true)

/-- A device with a reading that is not sent yet. -/
def oneWorld : World Bytes := { device := { storage := oneReading, deviceId := ascii "sensor-1" } }

theorem reached_oneWorld : Reached textJson [] (id : Bytes → Bytes) oneWorld := by
  have hstart : Reached textJson [] (id : Bytes → Bytes) _ :=
    Reached.start ∅ (ascii "sensor-1") fun _ _ => AList.lookup_empty _
  exact (hstart.step (.storage step_mountedBlank)).step (.storage step_oneReading)

/-- The only reading can be sent. The exchange sends it, and the server acknowledges it. -/
theorem exchanged_oneWorld :
    ((oneWorld.exchange textJson id).device.serverAckSequence = 1 ∧
      (oneWorld.exchange textJson id).requests.length = 1 ∧ (oneWorld.exchange textJson id).responses.length = 1) ∧
    oneWorld.device.storage.ram.health.newestSyncableSequence = 1 ∧
      (∃ path ∈ recordFiles oneWorld.device.storage.card, ∃ e ∈ entriesAt textJson oneWorld.device.storage.card path,
        e.syncable = true ∧ e.sequence = 1) ∧
      (∀ path ∈ recordFiles oneWorld.device.storage.card, ∀ e ∈ entriesAt textJson oneWorld.device.storage.card path,
        e.payload.length ≤ kMaximumEncodedRecordBytes) ∧
      oneWorld.device.storage.ram.health.oldestSequence ≤ 1 ∧ oneWorld.device.serverAckSequence = 0 := by
  decide +kernel

/-! ### Safety -/

/-- **What is acknowledged is delivered**: in every state of every run, for every sequence up to the cursor of the
device, the storage holds a record of this sequence, and the server has just this record. -/
theorem acknowledged_delivered (hj : j.Lawful) (h : Reached j fingerprint measurements w) :
    ∃ held, Kept j w.device.storage held ∧ ∀ n, 0 < n → n ≤ w.device.serverAckSequence →
      ∃ x, ∃ r ∈ held x, syncableRecord r = true ∧ r.sequence.toNat = n ∧
        ∃ v, append j measurements (serializeRecord j r) = some v ∧ w.server.get n = some v := by
  obtain ⟨held, log, hinv⟩ := h.invariant hj
  refine ⟨held, hinv.kept, fun n hpos hn => ?_⟩
  obtain ⟨v, hkept, hlog⟩ := hinv.delivery.delivered hpos hn
  obtain ⟨x, r, hr, hsyncable, hsequence, hread⟩ := (hinv.logs n v).mp hlog
  exact ⟨x, r, hr, hsyncable, hsequence, v, hread, hkept⟩

/-- The server has the reading that it acknowledged. -/
theorem acknowledged_delivered_one :
    (oneWorld.exchange textJson id).device.serverAckSequence = 1 ∧
      ∃ held, Kept textJson (oneWorld.exchange textJson id).device.storage held ∧
        ∀ n, 0 < n → n ≤ (oneWorld.exchange textJson id).device.serverAckSequence →
          ∃ x, ∃ r ∈ held x, syncableRecord r = true ∧ r.sequence.toNat = n ∧
            ∃ v, append textJson id (serializeRecord textJson r) = some v ∧
              (oneWorld.exchange textJson id).server.get n = some v :=
  ⟨exchanged_oneWorld.1.1, acknowledged_delivered textJson_lawful (exchange_reached reached_oneWorld)⟩

/-- **No reading is rejected**: the server never gets two readings of one sequence that differ, and the device is never
told that it did. -/
theorem never_rejected (hj : j.Lawful) (h : Reached j fingerprint measurements w) :
    (∀ batch ∈ w.requests, ∀ v ∈ batch.readings, ∀ v', w.server.get (WireReading.number v) = some v' → v' = v) ∧
      ∀ accepted duplicates rejected acknowledgement missing,
        .result accepted duplicates rejected acknowledgement missing ∈ w.responses → rejected = [] := by
  obtain ⟨held, log, hinv⟩ := h.invariant hj
  refine ⟨fun batch hbatch v hv v' hv' => ?_, hinv.agreed⟩
  have hlogged : log (WireReading.number v) = some v :=
    hinv.delivery.batches _ (List.mem_map_of_mem hbatch) _ (List.mem_map_of_mem hv)
  exact Option.some.inj ((hinv.delivery.kept _ _ hv').symm.trans hlogged)

/-- The reading is sent, and nothing is rejected. -/
theorem never_rejected_one :
    (oneWorld.exchange textJson id).requests.length = 1 ∧ (oneWorld.exchange textJson id).responses.length = 1 ∧
      ((∀ batch ∈ (oneWorld.exchange textJson id).requests, ∀ v ∈ batch.readings, ∀ v',
          (oneWorld.exchange textJson id).server.get (WireReading.number v) = some v' → v' = v) ∧
        ∀ accepted duplicates rejected acknowledgement missing,
          .result accepted duplicates rejected acknowledgement missing ∈
            (oneWorld.exchange textJson id).responses → rejected = []) :=
  ⟨exchanged_oneWorld.1.2.1, exchanged_oneWorld.1.2.2,
    never_rejected textJson_lawful (exchange_reached reached_oneWorld)⟩

end PowerMonitor.Network.ReadingSync
