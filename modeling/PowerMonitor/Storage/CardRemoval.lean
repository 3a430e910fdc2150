import Mathlib.Logic.Relation
import PowerMonitor.Config.Cursors
import PowerMonitor.Storage.SdStorage

/-! # Removing a card

A card is removed in steps that several tasks take: one saves the newest sequence as a checkpoint and
queues a message, the storage task handles the message once no record waits, the power is switched off
and another card is put in. Meanwhile records are queued and stored. The floor of the next mount is the
largest of the cursors, and the checkpoint is one of them.

On the next card the sequences start above those of the removed one if the checkpoint covers what was
given and no record is stored after it (`sequences_resume_above`). A record that waits is stored after
the checkpoint, and its sequence is given again (`sequence_given_again`). -/

namespace PowerMonitor.Storage.CardRemoval

open PowerMonitor.Lib.Binary PowerMonitor.Lib.Json PowerMonitor.Lib.Program PowerMonitor.Config.Cursors
open PowerMonitor.Storage.Reading PowerMonitor.Storage.Media PowerMonitor.Storage.SdStorage
open Relation (ReflTransGen)

/-! ### The device -/

/-- The cursors the floor of a mount depends on. -/
structure SequenceCursors where
  serverAck : ℕ := 0
  serverMaximumSeen : ℕ := 0
  preparedRemoval : ℕ := 0
  dataResetBoundary : ℕ := 0

/-- The floor of a mount; `others` are the boundaries of a reset and of an enrollment, if there are any. -/
def requiredSequenceFloor (c : SequenceCursors) (others : List ℕ) : ℕ :=
  others.foldl max (max (max c.serverAck c.serverMaximumSeen) (max c.preparedRemoval c.dataResetBoundary))

/-- The messages to the storage task that concern sequences. -/
inductive Control
  | prepareRemoval
  | reconcileSequence
  deriving DecidableEq

/-- The card, the cursors and the tasks. What was given is the sequences of records and of gaps, on the card
in the device and on the cards that were removed. -/
structure World where
  card : Card := ∅
  cursors : SequenceCursors := {}
  given : List ℕ := []
  removed : List ℕ := []
  removable : Bool := false
  running : Bool := false
  ram : Ram := {}
  published : Health := {}
  storageFloor : ℕ := 0
  requiredFloor : ℕ := 0
  writeQueue : List IntervalRecord := []
  controlQueue : List Control := []
  prepareRemovalQueued : Bool := false
  reconciliationQueued : Bool := false
  pendingRecord : Option IntervalRecord := none
  pendingGap : ℕ := 0
  droppedIntervals : ℕ := 0
  checkpointed : Bool := false
  preparing : Bool := false

/-- What a reader of the health gets: the variables, the last snapshot if the storage is busy, or nothing. -/
inductive HealthRead
  | current
  | snapshot
  | busy

def World.health (w : World) : HealthRead → Health
  | .current => w.ram.health
  | .snapshot => w.published
  | .busy => {}

/-- What is left when the power is lost. -/
def World.off (w : World) (card : Card) : World where
  card := card
  cursors := w.cursors
  given := w.given
  removed := w.removed
  removable := w.running && w.ram.health.preparedForRemoval

/-- The storage task runs a program; `update` is what it does with the answer. -/
def World.perform (w : World) (p : CardProg (Ram × Bool)) (events : List Event)
    (update : World → Bool → World) : World :=
  match run device p events w.card with
  | (card, none) => w.off card
  | (card, some ((ram, ok), _)) => update { w with card := card, ram := ram, published := ram.health } ok

/-! ### The tasks -/

/-- Some sequences from the next one on. -/
def sequencesFrom (first count : ℕ) : List ℕ := (List.range count).map (first + ·)

/-- A record is put in the queue, or its interval is counted as dropped. -/
def World.enqueueRecord (w : World) (record : IntervalRecord) (room : Bool) : World :=
  if room then { w with writeQueue := w.writeQueue ++ [record] }
  else { w with droppedIntervals := w.droppedIntervals + 1 }

/-- The first step of a removal saves the newest sequence. -/
def World.saveCheckpoint (w : World) (read : HealthRead) (written : Bool) : World :=
  let (cursor, saved) := setPreparedRemovalSequence w.cursors.preparedRemoval (w.health read).newestSequence written
  { w with
    cursors := { w.cursors with preparedRemoval := cursor }
    checkpointed := saved
    preparing := w.preparing || saved }

/-- The second one queues the message. -/
def World.queuePrepareRemoval (w : World) (room : Bool) : World :=
  if w.prepareRemovalQueued || !room then { w with checkpointed := false }
  else { w with
    checkpointed := false
    prepareRemovalQueued := true
    controlQueue := .prepareRemoval :: w.controlQueue }

/-- A heartbeat brings the cursors of the server. -/
def World.acceptCursors (w : World) (acknowledgement maximumSeen : ℕ) (written written' : Bool) : World :=
  { w with cursors := { w.cursors with
      serverAck := (setServerAckSequence w.cursors.serverAck acknowledgement written).1
      serverMaximumSeen := (setServerMaximumSeenSequence w.cursors.serverMaximumSeen maximumSeen written').1 } }

def World.queueSequenceReconciliation (w : World) (floor : ℕ) (room : Bool) : World :=
  let w := { w with requiredFloor := max w.requiredFloor floor }
  if w.reconciliationQueued || !room then w
  else { w with reconciliationQueued := true, controlQueue := .reconcileSequence :: w.controlQueue }

/-- Control messages wait for records, unless the card is full. -/
def World.controlAllowed (w : World) (capacityBlocked : Bool) : Bool :=
  (w.pendingRecord.isSome && capacityBlocked) || (w.pendingRecord.isNone && w.writeQueue.isEmpty)

def World.prepareRemoval (w : World) : World :=
  let health := { w.ram.health with preparedForRemoval := true, writable := false, mounted := false }
  { w with
    prepareRemovalQueued := false
    ram := { w.ram with health := health }
    published := health }

/-- The storage task handles a control message. -/
def World.control (j : JsonLibrary) (fingerprint : Bytes) (w : World) (events : List Event) : World :=
  match w.controlQueue with
  | [] => w
  | .prepareRemoval :: rest => World.prepareRemoval { w with controlQueue := rest }
  | .reconcileSequence :: rest =>
    World.perform { w with controlQueue := rest }
      (advanceSequenceFloor j fingerprint w.requiredFloor {} w.ram) events
      fun w _ => { w with reconciliationQueued := false }

/-- The storage task takes a record. -/
def World.receive (w : World) : World :=
  match w.writeQueue with
  | [] => w
  | record :: rest => { w with writeQueue := rest, pendingRecord := some record }

/-- Before a record is stored, sequences are reserved for the intervals that were dropped. -/
def World.reserve (j : JsonLibrary) (fingerprint : Bytes) (w : World) (events : List Event) : World :=
  let gap := w.pendingGap + w.droppedIntervals
  World.perform { w with pendingGap := gap, droppedIntervals := 0 }
    (reserveUnavailableIntervals j fingerprint gap {} w.ram) events
    fun w' reserved => if !reserved then w' else { w' with
      pendingGap := 0
      given := w'.given ++ sequencesFrom w.ram.nextSequence gap }

/-- The record is stored, or stays. -/
def World.store (j : JsonLibrary) (fingerprint : Bytes) (w : World) (record : IntervalRecord)
    (events : List Event) : World :=
  World.perform w (append j fingerprint record {} w.ram) events
    fun w' stored => if !stored then w' else { w' with
      pendingRecord := none
      given := w'.given ++ [w.ram.nextSequence] }

/-- The storage task mounts the card again when a record could not be stored. -/
def World.remountStorage (j : JsonLibrary) (fingerprint : Bytes) (w : World) (events : List Event) : World :=
  World.perform w (remountPreferred j fingerprint w.storageFloor w.ram) events fun w _ => w

/-- The device starts, and mounts the card that is in it. -/
def World.begin (j : JsonLibrary) (fingerprint : Bytes) (w : World) (others : List ℕ) (events : List Event) :
    World :=
  let floor := requiredSequenceFloor w.cursors others
  World.perform { w with running := true, removable := false, storageFloor := floor }
    (remountPreferred j fingerprint floor w.ram) events fun w _ => w

/-- A blank card is put in. -/
def World.replace (w : World) : World :=
  { w with card := ∅, given := [], removed := w.removed ++ w.given, removable := false }

/-! ### Runs -/

inductive Action
  | enqueueRecord (record : IntervalRecord) (room : Bool)
  | saveCheckpoint (read : HealthRead) (written : Bool)
  | queuePrepareRemoval (room : Bool)
  | acceptCursors (acknowledgement maximumSeen : ℕ) (written written' : Bool)
  | queueSequenceReconciliation (floor : ℕ) (room : Bool)
  | control (capacityBlocked : Bool) (events : List Event)
  | receive
  | reserve (events : List Event)
  | store (record : IntervalRecord) (events : List Event)
  | remountStorage (events : List Event)
  | powerOff
  | begin (others : List ℕ) (events : List Event)
  | replace

def World.after (j : JsonLibrary) (fingerprint : Bytes) (w : World) : Action → World
  | .enqueueRecord record room => w.enqueueRecord record room
  | .saveCheckpoint read written => w.saveCheckpoint read written
  | .queuePrepareRemoval room => w.queuePrepareRemoval room
  | .acceptCursors acknowledgement maximumSeen written written' =>
    w.acceptCursors acknowledgement maximumSeen written written'
  | .queueSequenceReconciliation floor room => w.queueSequenceReconciliation floor room
  | .control _ events => w.control j fingerprint events
  | .receive => w.receive
  | .reserve events => w.reserve j fingerprint events
  | .store record events => w.store j fingerprint record events
  | .remountStorage events => w.remountStorage j fingerprint events
  | .powerOff => w.off w.card
  | .begin others events => w.begin j fingerprint others events
  | .replace => w.replace

/-- **What can happen**: the tasks run while the device does, the storage task handles one record at a time,
and a card is replaced once its removal was prepared and the power is off. -/
def Action.Possible (w : World) : Action → Prop
  | .queuePrepareRemoval _ => w.running = true ∧ w.checkpointed = true
  | .control capacityBlocked _ => w.running = true ∧ w.controlAllowed capacityBlocked = true
  | .receive => w.running = true ∧ w.pendingRecord = none
  | .reserve _ | .remountStorage _ => w.running = true ∧ w.pendingRecord ≠ none
  | .store record _ => w.running = true ∧ w.pendingRecord = some record ∧ w.pendingGap = 0
  | .begin _ _ => w.running = false
  | .replace => w.running = false ∧ w.removable = true
  | _ => w.running = true

/-- **The checkpoint covers what was given, and no record is stored after it**; a floor that was not reached
is not reconciled by a lower one. -/
def Action.Orderly (w : World) : Action → Prop
  | .saveCheckpoint read _ => ∀ n ∈ w.given, n ≤ (w.health read).newestSequence
  | .reserve _ | .store _ _ => w.preparing = false
  | .control _ _ => w.ram.health.sequenceFloorReady = false → w.storageFloor ≤ w.requiredFloor
  | _ => True

instance (w : World) (action : Action) : Decidable (action.Possible w) := by
  cases action <;> unfold Action.Possible <;> infer_instance

instance (w : World) (action : Action) : Decidable (action.Orderly w) := by
  cases action <;> unfold Action.Orderly <;> infer_instance

inductive Step (j : JsonLibrary) (fingerprint : Bytes) (w : World) : World → Prop
  | act (action : Action) (possible : action.Possible w) : Step j fingerprint w (w.after j fingerprint action)

inductive OrderlyStep (j : JsonLibrary) (fingerprint : Bytes) (w : World) : World → Prop
  | act (action : Action) (possible : action.Possible w) (orderly : action.Orderly w) :
      OrderlyStep j fingerprint w (w.after j fingerprint action)

variable {j : JsonLibrary} {fingerprint : Bytes} {binding : CardBinding} {w w' : World} {card : Card} {ram : Ram}
variable {events : List Event} {record : IntervalRecord}

/-! ### The variables of the storage -/

/-- The variables move forward. -/
structure Moves (ram ram' : Ram) : Prop where
  next : ram.nextSequence ≤ ram'.nextSequence
  ready : ram'.health.sequenceFloorReady = true → ram.health.sequenceFloorReady = true
  prepared : ram'.health.preparedForRemoval = true → ram.health.preparedForRemoval = true

theorem Moves.refl (ram : Ram) : Moves ram ram := ⟨Nat.le_refl _, id, id⟩

theorem returns_reserve (count : ℕ) :
    (reserveUnavailableIntervals j fingerprint count binding ram).Returns fun result => Moves ram result.1 := by
  unfold reserveUnavailableIntervals
  refine Prog.returns_ite (fun _ => Moves.refl ram) fun _ => Prog.returns_ite (fun _ => Moves.refl ram) fun _ => ?_
  refine Prog.returns_bind fun _ => Prog.returns_ite (fun _ => Moves.refl ram) fun _ => Prog.returns_bind fun _ => ?_
  refine Prog.returns_ite (fun _ => Moves.refl ram) fun _ => Prog.returns_bind fun _ => ?_
  exact Prog.returns_ite (fun _ => Moves.refl ram) fun _ => ⟨Nat.le_add_right _ _, id, id⟩

/-- An append that succeeds had a floor, and gives the next sequence. -/
theorem returns_append : (append j fingerprint record binding ram).Returns fun result => Moves ram result.1 ∧
    (result.2 = true → ram.health.sequenceFloorReady = true ∧ result.1 = Ram.appended ram record) := by
  have hrefused : Moves ram ram ∧ (false = true → ram.health.sequenceFloorReady = true ∧
      ram = Ram.appended ram record) := ⟨Moves.refl ram, fun h => by cases h⟩
  unfold append
  refine Prog.returns_ite (fun _ => hrefused) fun haccepts => Prog.returns_bind fun _ => ?_
  refine Prog.returns_ite (fun _ => hrefused) fun _ => Prog.returns_bind fun _ => ?_
  refine Prog.returns_ite (fun _ => hrefused) fun _ => Prog.returns_bind fun _ => ?_
  refine Prog.returns_ite (fun _ => hrefused) fun _ => Prog.returns_bind fun _ => ?_
  refine Prog.returns_ite (fun _ => hrefused) fun _ => Prog.returns_bind fun written => ?_
  have hready : ram.health.sequenceFloorReady = true := by
    simp only [Bool.or_eq_true, Bool.not_eq_true', not_or, Bool.not_eq_false] at haccepts
    exact haccepts.1.2
  cases written with
  | none => exact hrefused
  | some written =>
    refine Prog.returns_ite (fun _ => ⟨⟨Nat.le_refl _, id, id⟩, fun h => by cases h⟩) fun _ => ?_
    unfold finishAppend
    refine Prog.returns_bind fun _ => Prog.returns_bind fun _ => Prog.returns_bind fun _ => ?_
    refine Prog.returns_ite (fun _ => hrefused) fun _ => Prog.returns_bind fun _ => ?_
    refine Prog.returns_ite (fun _ => hrefused) fun _ => Prog.returns_bind fun _ => ?_
    exact ⟨⟨Nat.le_succ _, fun _ => hready, fun h => by unfold Ram.appended at h; split at h <;> exact h⟩,
      fun _ => ⟨hready, rfl⟩⟩

/-- What raising the floor leaves: it is reached if that succeeds, or if the storage says it is ready and
anything changed. -/
structure Reaches (floor : ℕ) (ram : Ram) (result : Ram × Bool) : Prop where
  next : ram.nextSequence ≤ result.1.nextSequence
  done : result.2 = true → floor < result.1.nextSequence
  ready : result.1.health.sequenceFloorReady = true → floor < result.1.nextSequence ∨ result.1 = ram
  prepared : result.1.health.preparedForRemoval = true → ram.health.preparedForRemoval = true

theorem returns_advance (floor : ℕ) (hpositive : 0 < ram.nextSequence) :
    (advanceSequenceFloor j fingerprint floor binding ram).Returns (Reaches floor ram) := by
  have hfailed : ∀ ram' : Ram, ram'.nextSequence = ram.nextSequence →
      (ram'.health.sequenceFloorReady = true → ram' = ram) →
      ram'.health.preparedForRemoval = ram.health.preparedForRemoval → Reaches floor ram (ram', false) :=
    fun _ hnext hready hprepared =>
      ⟨hnext.ge, fun h => (by cases h), fun h => Or.inr (hready h), fun h => hprepared ▸ h⟩
  unfold advanceSequenceFloor
  refine Prog.returns_bind fun _ => Prog.returns_ite (fun _ => hfailed _ rfl (fun _ => rfl) rfl) fun _ => ?_
  refine Prog.returns_ite (fun hpassed => ?_) fun hahead => ?_
  · have hle : floor < (Ram.floorChecked ram false true false).nextSequence := by
      have hle := hpassed.2
      simp only [Ram.floorChecked]
      omega
    exact ⟨Nat.le_refl _, fun _ => hle, fun _ => Or.inl hle, id⟩
  · refine Prog.returns_ite (fun _ => hfailed _ rfl (fun h => (by cases h)) rfl)
      fun hvalid => Prog.returns_bind fun _ => ?_
    simp only [Bool.not_eq_true', Bool.and_eq_true, decide_eq_true_eq, Bool.not_eq_false] at hvalid
    simp only [hvalid.1.1, Bool.and_true, true_and, not_le] at hahead
    have hlt : floor < (Ram.advanced ram floor).nextSequence := Nat.lt_succ_self _
    have hnext : ram.nextSequence ≤ (Ram.advanced ram floor).nextSequence := by
      simp only [Ram.advanced]
      omega
    exact Prog.returns_ite (fun _ => ⟨hnext, fun _ => hlt, fun _ => Or.inl hlt, id⟩)
      fun _ => hfailed _ rfl (fun h => (by cases h)) rfl

/-- A recovery leaves the flags, and the next sequence after the floor it found. -/
structure Found (ram : Ram) (result : Ram × Bool) : Prop where
  positive : 0 < result.1.nextSequence
  ready : result.1.health.sequenceFloorReady = ram.health.sequenceFloorReady
  prepared : result.1.health.preparedForRemoval = ram.health.preparedForRemoval
  floor : result.2 = true → result.1.nextSequence = result.1.health.sequenceFloor + 1

theorem returns_recover (hpositive : 0 < ram.nextSequence) : (recover j ram).Returns (Found ram) := by
  unfold recover recoverFloor
  refine Prog.returns_bind fun _ => Prog.returns_bind fun t => ?_
  refine Prog.returns_bind fun _ => Prog.returns_bind fun _ => Prog.returns_bind fun _ => Prog.returns_bind fun _ => ?_
  refine Prog.returns_ite (fun _ => ⟨hpositive, rfl, rfl, fun h => (by cases h)⟩) fun _ => ?_
  exact Prog.returns_ite (fun _ => ⟨hpositive, rfl, rfl, fun h => (by cases h)⟩)
    fun _ => ⟨Nat.succ_pos _, rfl, rfl, fun _ => rfl⟩

/-- **A mount that is ready has reached its floor.** -/
theorem returns_remountPreferred (floor : ℕ) (hpositive : 0 < ram.nextSequence) :
    (remountPreferred j fingerprint floor ram).Returns fun result => 0 < result.1.nextSequence ∧
      (result.1.health.sequenceFloorReady = true → floor < result.1.nextSequence) ∧
      result.1.health.preparedForRemoval = false := by
  unfold remountPreferred
  refine Prog.returns_bind fun _ => Prog.returns_bind fun _ => ?_
  refine Prog.returns_ite (fun _ => ⟨hpositive, fun h => (by cases h), rfl⟩) fun _ => ?_
  have hrecover : (recover j (Ram.mounting ram)).Returns (Found (Ram.mounting ram)) := returns_recover hpositive
  refine hrecover.bind fun result hfound => ?_
  obtain ⟨found, ok⟩ := result
  have hprepared : found.health.preparedForRemoval = false := hfound.prepared
  refine Prog.returns_ite (fun _ => ⟨hfound.positive, fun h => ?_, hprepared⟩) fun hok => ?_
  · rw [hfound.ready] at h
    cases h
  · have hnext := hfound.floor (by simpa using hok)
    refine Prog.returns_ite (fun hle => ⟨hfound.positive, fun _ => ?_, hprepared⟩) fun _ => ?_
    · simp only [Ram.mounted] at hle hnext ⊢
      omega
    · refine Prog.Returns.bind (returns_advance floor hfound.positive) fun advanced hreaches => ?_
      refine ⟨hfound.positive.trans_le hreaches.next, hreaches.done, ?_⟩
      by_contra h
      have hset : found.health.preparedForRemoval = true := hreaches.prepared (by simpa [Ram.mounted] using h)
      rw [hprepared] at hset
      cases hset

/-! ### What a run preserves -/

/-- **What holds in an orderly run**: a removal is prepared only after its checkpoint, what was given is
covered by the checkpoint then, and the storage is ready only above the floor of its mount. -/
structure Sound (w : World) : Prop where
  positive : 0 < w.ram.nextSequence
  prepares : .prepareRemoval ∈ w.controlQueue ∨ w.checkpointed = true ∨ w.ram.health.preparedForRemoval = true →
    w.preparing = true
  covered : w.preparing = true ∨ w.removable = true → ∀ n ∈ w.given, n ≤ w.cursors.preparedRemoval
  kept : ∀ n ∈ w.removed, n ≤ w.cursors.preparedRemoval
  inUse : w.running = true → w.removable = false
  floor : w.running = true → ∀ n ∈ w.removed, n ≤ w.storageFloor
  ready : w.ram.health.sequenceFloorReady = true → w.storageFloor < w.ram.nextSequence

/-- The device as it is when it is switched on for the first time. -/
theorem sound_initial (card : Card) (cursors : SequenceCursors) (given : List ℕ) :
    Sound { card := card, cursors := cursors, given := given } where
  positive := Nat.succ_pos _
  prepares h := by rcases h with h | h | h <;> cases h
  covered h := by rcases h with h | h <;> cases h
  kept n hn := by cases hn
  inUse h := by cases h
  floor h := by cases h
  ready h := by cases h

/-- When the power is lost, the card may be removed if its removal was prepared. -/
theorem sound_off (hcovered : w.ram.health.preparedForRemoval = true → ∀ n ∈ w.given, n ≤ w.cursors.preparedRemoval)
    (hkept : ∀ n ∈ w.removed, n ≤ w.cursors.preparedRemoval) (card : Card) : Sound (w.off card) where
  positive := Nat.succ_pos _
  prepares h := by rcases h with h | h | h <;> cases h
  covered hremovable := by
    have hprepared : w.running = true ∧ w.ram.health.preparedForRemoval = true := by
      simpa [World.off] using hremovable
    exact hcovered hprepared.2
  kept := hkept
  inUse h := by cases h
  floor h := by cases h
  ready h := by cases h

theorem Sound.off (h : Sound w) (card : Card) : Sound (w.off card) :=
  sound_off (fun hprepared => h.covered (Or.inl (h.prepares (Or.inr (Or.inr hprepared))))) h.kept card

/-- A program of the storage task: the power is lost, or it returns. -/
theorem sound_perform (hoff : ∀ card, Sound (w.off card)) {p : CardProg (Ram × Bool)} {R : Ram × Bool → Prop}
    (hp : p.Returns R) {update : World → Bool → World}
    (hupdate : ∀ card ram ok, R (ram, ok) →
      Sound (update { w with card := card, ram := ram, published := ram.health } ok)) :
    Sound (w.perform p events update) := by
  unfold World.perform
  split
  · exact hoff _
  · next hrun => exact hupdate _ _ _ (hp.of_run (congrArg Prod.snd hrun))

/-- The variables moved forward, and nothing else changed. -/
theorem Sound.moves (h : Sound w) (card : Card) (hmoves : Moves w.ram ram) :
    Sound { w with card := card, ram := ram, published := ram.health } :=
  { h with
    positive := h.positive.trans_le hmoves.next
    prepares := fun hprepared => h.prepares (hprepared.imp_right (Or.imp_right hmoves.prepared))
    ready := fun hready => (h.ready (hmoves.ready hready)).trans_le hmoves.next }

/-- What is given while no removal is prepared needs no checkpoint. -/
theorem Sound.give (h : Sound w) (hpreparing : w.preparing = false) (hremovable : w.removable = false)
    (given : List ℕ) : Sound { w with given := given } where
  positive := h.positive
  prepares := h.prepares
  covered hset := by rcases hset with hset | hset <;> simp_all
  kept := h.kept
  inUse := h.inUse
  floor := h.floor
  ready := h.ready

theorem le_requiredSequenceFloor (c : SequenceCursors) (others : List ℕ) :
    c.preparedRemoval ≤ requiredSequenceFloor c others := by
  have hfold : ∀ (l : List ℕ) (n : ℕ), n ≤ l.foldl max n := by
    intro l
    induction l with
    | nil => exact fun n => Nat.le_refl n
    | cons m l ih => exact fun n => (Nat.le_max_left n m).trans (ih _)
  have hle := hfold others (max (max c.serverAck c.serverMaximumSeen) (max c.preparedRemoval c.dataResetBoundary))
  unfold requiredSequenceFloor
  omega

/-- The checkpoint. -/
theorem Sound.saveCheckpoint (h : Sound w) {read : HealthRead} {written : Bool}
    (horderly : ∀ n ∈ w.given, n ≤ (w.health read).newestSequence) : Sound (w.saveCheckpoint read written) := by
  have hle := le_raiseCursor w.cursors.preparedRemoval (w.health read).newestSequence written
  have heq := @raiseCursor_eq w.cursors.preparedRemoval (w.health read).newestSequence written
  simp only [World.saveCheckpoint, setPreparedRemovalSequence]
  generalize raiseCursor w.cursors.preparedRemoval (w.health read).newestSequence written = result at hle heq
  obtain ⟨cursor, saved⟩ := result
  refine ⟨h.positive, fun hprepared => ?_, fun hset n hn => ?_, fun n hn => (h.kept n hn).trans hle, h.inUse,
    h.floor, h.ready⟩
  · simp only [Bool.or_eq_true]
    rcases hprepared with hqueued | hsaved | hprepared
    · exact Or.inl (h.prepares (Or.inl hqueued))
    · exact Or.inr hsaved
    · exact Or.inl (h.prepares (Or.inr (Or.inr hprepared)))
  · simp only [Bool.or_eq_true] at hset
    rcases hset with (hpreparing | hsaved) | hremovable
    · exact (h.covered (Or.inl hpreparing) n hn).trans hle
    · exact (horderly n hn).trans_eq (heq hsaved).symm
    · exact (h.covered (Or.inr hremovable) n hn).trans hle

/-- A floor is reconciled. -/
theorem Sound.reaches (h : Sound w) (card : Card) {floor : ℕ} {ok : Bool} (hreaches : Reaches floor w.ram (ram, ok))
    (horderly : w.ram.health.sequenceFloorReady = false → w.storageFloor ≤ floor) :
    Sound { w with card := card, ram := ram, published := ram.health } where
  positive := h.positive.trans_le hreaches.next
  prepares hprepared := h.prepares (hprepared.imp_right (Or.imp_right hreaches.prepared))
  covered := h.covered
  kept := h.kept
  inUse := h.inUse
  floor := h.floor
  ready hready := by
    rcases hreaches.ready hready with hlt | heq
    · cases hold : w.ram.health.sequenceFloorReady with
      | false => exact (horderly hold).trans_lt hlt
      | true => exact (h.ready hold).trans_le hreaches.next
    · simp only at heq
      subst heq
      exact h.ready hready

/-- A mount. -/
theorem Sound.mounts (h : Sound w) (hmounted : 0 < ram.nextSequence ∧
    (ram.health.sequenceFloorReady = true → w.storageFloor < ram.nextSequence) ∧
    ram.health.preparedForRemoval = false) :
    Sound { w with card := card, ram := ram, published := ram.health } :=
  { h with
    positive := hmounted.1
    prepares := fun hset => h.prepares <| hset.imp_right <| Or.imp_right fun hset => by
      rw [hmounted.2.2] at hset
      cases hset
    ready := hmounted.2.1 }

/-- The device starts: the floor of its mount is above the sequences of the cards that were removed. -/
theorem Sound.begin (h : Sound w) {others : List ℕ} : Sound (w.begin j fingerprint others events) := by
  have hcovered : w.ram.health.preparedForRemoval = true → ∀ n ∈ w.given, n ≤ w.cursors.preparedRemoval :=
    fun hprepared => h.covered (Or.inl (h.prepares (Or.inr (Or.inr hprepared))))
  simp only [World.begin]
  refine sound_perform (fun card => ?_)
    (returns_remountPreferred (requiredSequenceFloor w.cursors others) h.positive) fun card ram ok hmounted => ?_
  · refine sound_off ?_ ?_ card
    · exact hcovered
    · exact h.kept
  refine ⟨hmounted.1, fun hset => h.prepares ?_, fun hset => ?_, h.kept, fun _ => rfl, fun _ n hn => ?_, hmounted.2.1⟩
  · rcases hset with hqueued | hsaved | hset
    · exact Or.inl hqueued
    · exact Or.inr (Or.inl hsaved)
    · rw [hmounted.2.2] at hset
      cases hset
  · rcases hset with hset | hset
    · exact h.covered (Or.inl hset)
    · cases hset
  · exact (h.kept n hn).trans (le_requiredSequenceFloor w.cursors others)

theorem Sound.replace (h : Sound w) (hremovable : w.removable = true) (hrunning : w.running = false) :
    Sound w.replace :=
  { h with
    covered := fun _ n hn => by cases hn
    kept := fun n hn => (List.mem_append.mp hn).elim (h.kept n) (h.covered (Or.inr hremovable) n)
    inUse := fun _ => rfl
    floor := fun hset => by
      rw [show w.replace.running = w.running from rfl, hrunning] at hset
      cases hset }

/-- **What one step preserves.** -/
theorem OrderlyStep.sound (hstep : OrderlyStep j fingerprint w w') (h : Sound w) : Sound w' := by
  obtain ⟨action, possible, orderly⟩ := hstep
  cases action with
  | enqueueRecord record room =>
    simp only [World.after, World.enqueueRecord]
    split
    · exact { h with }
    · exact { h with }
  | saveCheckpoint read written => exact h.saveCheckpoint orderly
  | queuePrepareRemoval room =>
    have hpreparing := h.prepares (Or.inr (Or.inl possible.2))
    simp only [World.after, World.queuePrepareRemoval]
    split
    · exact { h with prepares := fun _ => hpreparing }
    · exact { h with prepares := fun _ => hpreparing }
  | acceptCursors acknowledgement maximumSeen written written' => exact { h with }
  | queueSequenceReconciliation floor room =>
    simp only [World.after, World.queueSequenceReconciliation]
    split
    · exact { h with }
    · exact { h with prepares := fun hset => h.prepares (hset.imp_left fun hmem => by simpa using hmem) }
  | control capacityBlocked events =>
    simp only [World.after, World.control]
    split
    · exact h
    · next rest hqueue =>
      have hpreparing := h.prepares (Or.inl (by rw [hqueue]; exact List.mem_cons_self))
      exact { h with prepares := fun _ => hpreparing }
    · next rest hqueue =>
      have hrest : Sound { w with controlQueue := rest } :=
        { h with prepares := fun hset => h.prepares (hset.imp_left fun hmem => by simp [hqueue, hmem]) }
      refine sound_perform hrest.off (returns_advance w.requiredFloor h.positive) fun card ram ok hreaches => ?_
      exact { hrest.reaches card hreaches orderly with }
  | receive =>
    simp only [World.after, World.receive]
    split
    · exact h
    · exact { h with }
  | reserve events =>
    have hgap : Sound { w with pendingGap := w.pendingGap + w.droppedIntervals, droppedIntervals := 0 } := { h with }
    simp only [World.after, World.reserve]
    refine sound_perform hgap.off (returns_reserve _) fun card ram ok hmoves => ?_
    have hmoved := hgap.moves card hmoves
    split
    · exact hmoved
    · exact { hmoved.give orderly (h.inUse possible.1)
        (w.given ++ sequencesFrom w.ram.nextSequence (w.pendingGap + w.droppedIntervals)) with }
  | store record events =>
    simp only [World.after, World.store]
    refine sound_perform h.off returns_append fun card ram ok hresult => ?_
    have hmoved := h.moves card hresult.1
    split
    · exact hmoved
    · exact { hmoved.give orderly (h.inUse possible.1) (w.given ++ [w.ram.nextSequence]) with }
  | remountStorage events =>
    simp only [World.after, World.remountStorage]
    exact sound_perform h.off (returns_remountPreferred w.storageFloor h.positive) fun _ _ _ hmounted => h.mounts hmounted
  | powerOff => exact h.off w.card
  | begin others events => exact h.begin
  | replace => exact h.replace possible.2 possible.1

theorem sound_run (h : Sound w) (hrun : ReflTransGen (OrderlyStep j fingerprint) w w') : Sound w' := by
  induction hrun with
  | refl => exact h
  | tail _ hstep ih => exact hstep.sound ih

/-- **Sequences resume above those of the removed cards** in an orderly run: a record that is stored gets the
next sequence, and that is above all that was given to records and to gaps on them. -/
theorem sequences_resume_above {card card' : Card} {cursors : SequenceCursors} {given : List ℕ}
    (hrun : ReflTransGen (OrderlyStep j fingerprint) { card := card, cursors := cursors, given := given } w)
    (hpossible : (Action.store record events).Possible w) {rest : List Event}
    (hstored : run device (append j fingerprint record {} w.ram) events w.card = (card', some ((ram, true), rest))) :
    ram = Ram.appended w.ram record ∧ ∀ n ∈ w.removed, n < w.ram.nextSequence := by
  have h := sound_run (sound_initial card cursors given) hrun
  obtain ⟨hready, happended⟩ := (returns_append.of_run (congrArg Prod.snd hstored)).2 rfl
  exact ⟨happended, fun n hn => (h.floor hpossible.1 n hn).trans_lt (h.ready hready)⟩

/-! ### A record waits -/

def waitingRecord : IntervalRecord := { startUtcMs := 1700002800000, endUtcMs := 1700002860000 }

def works : List Event := List.replicate 100 .done

/-- The device starts with a blank card, and one record is stored. -/
def recording : List Action :=
  [.begin [] works, .enqueueRecord waitingRecord true, .receive, .reserve works, .store waitingRecord works]

/-- The removal is prepared, the card is replaced and the device starts again. -/
def removal : List Action := [.queuePrepareRemoval true, .control false [], .powerOff, .replace, .begin [] works,
  .enqueueRecord waitingRecord true, .receive, .reserve works]

def World.afterAll (w : World) (actions : List Action) : World := actions.foldl (World.after textJson []) w

/-- Every action is permitted in the world it starts from. -/
def Permits (permitted : World → Action → Prop) : World → List Action → Prop
  | _, [] => True
  | w, action :: actions => permitted w action ∧ Permits permitted (w.after textJson [] action) actions

instance decidablePermits (permitted : World → Action → Prop) [∀ w action, Decidable (permitted w action)] :
    ∀ (w : World) (actions : List Action), Decidable (Permits permitted w actions)
  | _, [] => .isTrue trivial
  | w, action :: actions =>
    have := decidablePermits permitted (w.after textJson [] action) actions
    inferInstanceAs (Decidable (permitted w action ∧ Permits permitted (w.after textJson [] action) actions))

theorem run_of_permits (permitted : World → Action → Prop) {R : World → World → Prop}
    (hstep : ∀ w action, permitted w action → R w (w.after textJson [] action)) {actions : List Action}
    (h : Permits permitted w actions) : ReflTransGen R w (w.afterAll actions) := by
  induction actions generalizing w with
  | nil => exact .refl
  | cons action actions ih => exact .head (hstep w action h.1) (ih h.2)

/-- No record waits when the checkpoint is saved. -/
def resumed : World := World.afterAll {} (recording ++ .saveCheckpoint .current true :: removal)

theorem resumed_permits :
    Permits (fun w action => action.Possible w ∧ action.Orderly w) {}
      (recording ++ .saveCheckpoint .current true :: removal) ∧
    resumed.removed = [1] ∧ (Action.store waitingRecord works).Possible resumed ∧
    (run device (append textJson [] waitingRecord {} resumed.ram) works resumed.card).2 =
      some ((Ram.appended resumed.ram waitingRecord, true), List.replicate 85 .done) := by decide +kernel

theorem resumed_run : ReflTransGen (OrderlyStep textJson []) {} resumed :=
  run_of_permits (fun w action => action.Possible w ∧ action.Orderly w)
    (fun _ action h => .act action h.1 h.2) resumed_permits.1

theorem run_store {ram' : Ram} {rest : List Event}
    (h : (run device (append textJson [] record {} ram) events card).2 = some ((ram', true), rest)) :
    run device (append textJson [] record {} ram) events card =
      ((run device (append textJson [] record {} ram) events card).1, some ((ram', true), rest)) := Prod.ext rfl h

/-- The first sequence on the next card is the second one. -/
theorem sequences_resume_above_first : resumed.removed = [1] ∧ ∀ n ∈ resumed.removed, n < resumed.ram.nextSequence := by
  obtain ⟨-, hremoved, hpossible, hstored⟩ := resumed_permits
  exact ⟨hremoved, (sequences_resume_above resumed_run hpossible (run_store hstored)).2⟩

/-- A record is queued after the checkpoint is saved, and stored before the message is handled. -/
def overtaken : World := World.afterAll {} (recording ++ .saveCheckpoint .current true ::
  .enqueueRecord waitingRecord true :: .receive :: .reserve works :: .store waitingRecord works :: removal)

theorem overtaken_permits :
    Permits (fun w action => action.Possible w) {} (recording ++ .saveCheckpoint .current true ::
      .enqueueRecord waitingRecord true :: .receive :: .reserve works :: .store waitingRecord works :: removal) ∧
    (Action.store waitingRecord works).Possible overtaken ∧
    ((run device (append textJson [] waitingRecord {} overtaken.ram) works overtaken.card).2.map
      fun result => result.1.2) = some true ∧
    overtaken.ram.nextSequence ∈ overtaken.removed := by decide +kernel

/-- **A sequence is given again** on the next card, because a record was stored after the checkpoint. -/
theorem sequence_given_again : ReflTransGen (Step textJson []) {} overtaken ∧
    (Action.store waitingRecord works).Possible overtaken ∧
    ((run device (append textJson [] waitingRecord {} overtaken.ram) works overtaken.card).2.map
      fun result => result.1.2) = some true ∧
    overtaken.ram.nextSequence ∈ overtaken.removed :=
  ⟨run_of_permits (fun w action => action.Possible w) (fun _ action h => .act action h) overtaken_permits.1,
    overtaken_permits.2⟩

end PowerMonitor.Storage.CardRemoval
