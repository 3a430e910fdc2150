import Mathlib.Logic.Relation
import PowerMonitor.Storage.Events
import PowerMonitor.Storage.CleanupRecovery
import PowerMonitor.Storage.FaultyOperations

/-! # No event is born acknowledged

The storage appends events and finds their counter again when a card is mounted; the server acknowledges
what was sent, and the device keeps the acknowledgement in its preferences. The counter lives on the card
and the acknowledgement does not. While no card is replaced after an acknowledgement the counter stays
above it (`born_unacknowledged`), since what was sent stands on the card. On a blank card the counter
starts again at one (`born_acknowledged`). -/

namespace PowerMonitor.Storage.EventAcks

open PowerMonitor.Lib.Binary PowerMonitor.Lib.Lines PowerMonitor.Lib.Scan PowerMonitor.Lib.Json
open PowerMonitor.Lib.Program PowerMonitor.Lib.Walk PowerMonitor.Config.Cursors
open PowerMonitor.Storage.RecordFormat PowerMonitor.Storage.Reading PowerMonitor.Storage.Media
open PowerMonitor.Storage.Segment PowerMonitor.Storage.ReadPage PowerMonitor.Storage.PageSpec
open PowerMonitor.Storage.SdStorage PowerMonitor.Storage.Frames PowerMonitor.Storage.Intact
open PowerMonitor.Storage.Cleanup PowerMonitor.Storage.Events PowerMonitor.Storage.Faults
open PowerMonitor.Storage.FaultyOperations PowerMonitor.Storage.CleanupRecovery
open Relation (ReflTransGen)

/-! ### Runs -/

/-- The device and its card. What was sent is the largest sequence of an event on a page that the server
received: from any card, and from the one that is in the device. -/
structure World where
  card : Card := ∅
  ram : EventRam := {}
  ack : ℕ := 0
  sent : ℕ := 0
  sentHere : ℕ := 0

/-- What happens to events. The server may not answer, and the preferences may refuse the answer. -/
inductive Action
  | append (event : DeviceEvent) (binding : CardBinding) (events : List Event)
  | mount (events : List Event)
  | synchronise (after : UInt64) (faults : ReadFaults) (acknowledged : Option ℕ) (written : Bool)
  | reboot
  | replace
  | other (card : Card)

/-- The page that is sent. -/
def World.page (j : JsonLibrary) (w : World) (after : UInt64) (faults : ReadFaults) : HistoryPage :=
  readEvents j w.card faults (eventQuery after)

/-- The world after an action; when the power is lost, so are the variables. -/
def World.after (j : JsonLibrary) (fingerprint : Bytes) (w : World) : Action → World
  | .append event binding events =>
    let out := run device (appendEvent j fingerprint event binding w.ram) events w.card
    { w with card := out.1, ram := (out.2.map fun result => result.1.1).getD {} }
  | .mount events =>
    let out := run device (mountEvents j w.ram) events w.card
    { w with card := out.1, ram := (out.2.map Prod.fst).getD {} }
  | .synchronise after faults acknowledged written =>
    let page := w.page j after faults
    if !page.ok || page.records = [] then w
    else { w with
      sent := max w.sent page.lastSequence
      sentHere := max w.sentHere page.lastSequence
      ack := (acknowledged.map fun a => acknowledgeEvents w.ack page a written).getD w.ack }
  | .reboot => { w with ram := {} }
  | .replace => { w with card := ∅, ram := {}, sentHere := 0 }
  | .other card => { w with card := card }

def isEventFile (path : Bytes) : Prop := ascii "/POWERMON/events/" <+: path ∧ ascii ".events" <:+ path

/-- The files of events and their sidecars are the same. -/
def SameEvents (s s' : Card) : Prop :=
  ∀ p, isEventFile p → s'.lookup p = s.lookup p ∧ s'.lookup (metadataPath p) = s.lookup (metadataPath p)

/-- Reads and listings do not fail, and a write that reports fewer bytes than it was given has not stored
all of them. -/
def Honest : Op → Event → Prop
  | .exists _, e | .read _, e | .list _ _, e => e = .done
  | .append _ content, .cut stored _ => stored < content.length
  | _, _ => True

instance (o : Op) (e : Event) : Decidable (Honest o e) :=
  match o, e with
  | .exists _, e | .read _, e | .list _ _, e => inferInstanceAs (Decidable (e = .done))
  | .append _ content, .cut stored _ => inferInstanceAs (Decidable (stored < content.length))
  | .append _ _, .done | .append _ _, .failed | .append _ _, .free _ | .append _ _, .missing _
  | .write _ _, _ | .remove _, _ | .rename _ _, _ | .ensureDirectory _, _ | .freeBytes, _ => .isTrue trivial

/-- **What can happen**: the server acknowledges events that were sent. -/
def Action.Possible (j : JsonLibrary) (w : World) : Action → Prop
  | .synchronise after faults acknowledged _ =>
    ∀ a ∈ acknowledged, a ≤ max w.sent (w.page j after faults).lastSequence
  | .other card => SameEvents w.card card
  | _ => True

/-- The file of an event before it is appended. -/
def before (card : Card) (event : DeviceEvent) : Bytes := (card.lookup (eventPath event)).getD []

/-- An unfinished line at the end of the file does not make a line that decodes with the new envelope. -/
def TornApart (j : JsonLibrary) (w : World) (event : DeviceEvent) : Prop :=
  ∀ e, decodeLine j .events (unterminated (before w.card event) ++ eventEnvelope j event w.ram.nextEventSequence) =
    .ok e → unterminated (before w.card event) = []

/-- The sequences of the lines up to the first bad one. -/
def countEventLines (j : JsonLibrary) : List Bytes → List ℕ
  | [] => []
  | line :: ls =>
    match eventLine j line with
    | none => []
    | some n => n :: countEventLines j ls

/-- The event stands on the card: a recovery counts it. -/
def Stands (j : JsonLibrary) (card : Card) (n : ℕ) : Prop :=
  ∃ path content, isEventFile path ∧ card.lookup path = some content ∧ n ∈ countEventLines j (lines content)

/-- **No card is replaced once something is acknowledged**, and what is acknowledged was sent from the card
in the device. Besides, the storage is honest, the counter does not overflow and no envelope makes a line
with an unfinished one. -/
def Action.Orderly (j : JsonLibrary) (fingerprint : Bytes) (w : World) : Action → Prop
  | .append event binding events =>
    Along device (fun o e _ => Honest o e) (appendEvent j fingerprint event binding w.ram) events w.card ∧
      TornApart j w event ∧ w.ram.nextEventSequence + 1 < 2 ^ 64
  | .mount events =>
    Along device (fun o e _ => Honest o e) (mountEvents j w.ram) events w.card ∧
      (∀ n, Stands j w.card n → n + 1 < 2 ^ 64) ∧
      ∀ content, w.card.lookup eventJournalPath = some content → parseEventJournal content + 1 < 2 ^ 64
  | .synchronise after faults acknowledged _ =>
    ∀ a ∈ acknowledged, a ≤ max w.sentHere (w.page j after faults).lastSequence
  | .replace => w.ack = 0
  | _ => True

inductive EventStep (j : JsonLibrary) (fingerprint : Bytes) (w : World) : World → Prop
  | act (action : Action) (possible : action.Possible j w) : EventStep j fingerprint w (w.after j fingerprint action)

inductive OrderlyStep (j : JsonLibrary) (fingerprint : Bytes) (w : World) : World → Prop
  | act (action : Action) (possible : action.Possible j w) (orderly : action.Orderly j fingerprint w) :
      OrderlyStep j fingerprint w (w.after j fingerprint action)

variable {j : JsonLibrary} {fingerprint : Bytes} {w w' : World} {card s s' : Card} {event : DeviceEvent}
variable {path content : Bytes} {n : ℕ}

theorem orderly_append {binding : CardBinding} {events : List Event}
    (h : Along device (fun o e _ => Honest o e) (appendEvent j fingerprint event binding w.ram) events w.card ∧
      unterminated (before w.card event) = [] ∧ w.ram.nextEventSequence + 1 < 2 ^ 64) :
    (Action.append event binding events).Orderly j fingerprint w := ⟨h.1, fun _ _ => h.2.1, h.2.2⟩

/-! ### Lines -/

/-- A recovery finds the greatest sequence of the lines it counts. -/
theorem isGreatest_recoverEventLines (ls : List Bytes) (t : EventTally) :
    IsGreatest (insert t.maximumSequence {n | n ∈ countEventLines j ls})
      (recoverEventLines j ls t).maximumSequence := by
  induction ls generalizing t with
  | nil => simp [recoverEventLines, countEventLines, IsGreatest, upperBounds]
  | cons line ls ih =>
    unfold recoverEventLines countEventLines
    cases eventLine j line with
    | none => simp [IsGreatest, upperBounds]
    | some sequence =>
      have hfirst : IsGreatest (insert t.maximumSequence {sequence})
          (t.add sequence sequence).maximumSequence := isGreatest_pair
      have hset : {n | n ∈ sequence :: countEventLines j ls} = {sequence} ∪ {n | n ∈ countEventLines j ls} := by
        ext n
        simp
      rw [hset]
      exact isGreatest_insert_union hfirst (ih _)

/-- What was counted is, once lines follow. -/
theorem mem_countEventLines_append {ls : List Bytes} (h : n ∈ countEventLines j ls) (ls' : List Bytes) :
    n ∈ countEventLines j (ls ++ ls') := by
  induction ls with
  | nil => cases h
  | cons line ls ih =>
    unfold countEventLines at h
    rw [List.cons_append, countEventLines]
    cases hline : eventLine j line with
    | none =>
      rw [hline] at h
      cases h
    | some m =>
      rw [hline] at h
      simp only [List.mem_cons] at h ⊢
      exact h.imp_right ih

/-- A new line counts at most its own sequence. -/
theorem mem_countEventLines_concat {ls : List Bytes} {line : Bytes}
    (h : n ∈ countEventLines j (ls ++ [line])) : n ∈ countEventLines j ls ∨ eventLine j line = some n := by
  induction ls with
  | nil =>
    rw [List.nil_append, countEventLines] at h
    cases hline : eventLine j line with
    | none => simp [hline] at h
    | some m =>
      simp only [hline, countEventLines, List.mem_singleton] at h
      exact Or.inr (by rw [h])
  | cons first ls ih =>
    rw [List.cons_append, countEventLines] at h
    rw [countEventLines]
    cases hline : eventLine j first with
    | none => simp [hline] at h
    | some m =>
      simp only [hline, List.mem_cons] at h ⊢
      rcases h with h | h
      · exact Or.inl (Or.inl h)
      · exact (ih h).imp_left Or.inr

theorem eventLine_eq_some {line : Bytes} (h : eventLine j line = some n) :
    ∃ e, decodeLine j .events line = .ok e ∧ e.sequence = n := by
  unfold eventLine at h
  split at h
  · cases h
  · unfold decodeLine
    cases hdecode : decodeEnvelope line with
    | none => simp [hdecode] at h
    | some decoded =>
      obtain ⟨payload, crc⟩ := decoded
      simp only [hdecode, Option.bind_eq_bind, Option.bind_some] at h
      cases hdocument : j.deserialize payload with
      | none => simp [hdocument] at h
      | some document =>
        simp only [hdocument, Option.bind_some] at h
        split at h
        · cases h
          simp only [hdocument]
          exact ⟨_, rfl, rfl⟩
        · cases h

theorem nodup_eventDocument (event : DeviceEvent) (sequence : ℕ) :
    ((eventDocument event sequence).map Prod.fst).Nodup := by
  by_cases hsource : event.sourceEventId = 0
  · have hnames : (eventDocument event sequence).map Prod.fst = (eventDocument {} 0).map Prod.fst := by
      simp [eventDocument, hsource]
    rw [hnames]
    decide
  · have hnames : (eventDocument event sequence).map Prod.fst =
        (eventDocument { sourceEventId := 1 } 0).map Prod.fst := by
      simp [eventDocument, hsource]
    rw [hnames]
    decide

/-- **A stored event decodes**, with its sequence. -/
theorem eventEnvelope_decodes (hj : j.Lawful) (hn : n < 2 ^ 64) (event : DeviceEvent) :
    (∃ e, decodeLine j .events (eventEnvelope j event n) = .ok e ∧ e.sequence = n) ∧
      ((eventEnvelope j event n).length ≤ 8193 → eventLine j (eventEnvelope j event n) = some n) := by
  obtain ⟨view, hview, hshows⟩ := hj.readsBack _ (nodup_eventDocument event n)
  have hsequence := hshows (ascii "event_sequence") (unsigned (UInt64.ofNat n)) (by simp [eventDocument])
  simp only [Shows, unsigned] at hsequence
  have hvalue : (UInt64.ofNat n).toNat = n := by
    rw [UInt64.toNat_ofNat', Nat.mod_eq_of_lt hn]
  constructor
  · unfold decodeLine eventEnvelope
    rw [decodeEnvelope_encodeEnvelope]
    simp only [hview]
    exact ⟨_, rfl, by simp [SegmentKind.sequenceField, hsequence.1, hvalue]⟩
  · intro hlength
    unfold eventLine
    rw [if_neg (by omega), eventEnvelope, decodeEnvelope_encodeEnvelope]
    simp [hview, hsequence.2, hsequence.1, hvalue]

/-! ### Files -/

theorem eventPath_isEventFile (event : DeviceEvent) : isEventFile (eventPath event) := by
  have h1 : ascii "/POWERMON/events/" = ascii "/POWERMON/" ++ (ascii "events" ++ [47]) := by decide
  have h2 : ascii "/untrusted/" = 47 :: ascii "untrusted/" := by decide
  unfold isEventFile eventPath datedPath
  generalize civilFromDays (event.utcMs.toNat / 1000 / 86400) = date
  obtain ⟨year, month, day⟩ := date
  split
  · refine ⟨⟨ascii "untrusted/" ++ (event.bootId ++ ascii ".events"), ?_⟩,
      ⟨ascii "/POWERMON/" ++ (ascii "events" ++ (ascii "/untrusted/" ++ event.bootId)), by simp⟩⟩
    rw [h1, h2]
    simp
  · refine ⟨⟨padded 4 year ++ (47 :: (padded 2 month ++ (47 :: (dateText year month day ++ ascii ".events")))), ?_⟩,
      ⟨ascii "/POWERMON/" ++ (ascii "events" ++ (47 :: (padded 4 year ++ (47 :: (padded 2 month ++
        (47 :: dateText year month day)))))), by simp⟩⟩
    rw [h1]
    simp

theorem eventFile_ne_metadata {p q : Bytes} (hp : isEventFile p) : p ≠ metadataPath q :=
  ne_of_suffix hp.2 (metadata_suffix q) (by decide) (by decide) (by decide)

/-- The operation changes neither a file of events nor a sidecar. -/
def Outside : Op → Prop
  | .append path _ | .write path _ | .remove path => ¬ isEventFile path ∧ ∀ q, path ≠ metadataPath q
  | .rename source target => (¬ isEventFile source ∧ ∀ q, source ≠ metadataPath q) ∧
      ¬ isEventFile target ∧ ∀ q, target ≠ metadataPath q
  | _ => True

theorem SameEvents.refl (s : Card) : SameEvents s s := fun _ _ => ⟨rfl, rfl⟩

theorem act_sameEvents {o : Op} (ho : Outside o) (e : Event) (hs : SameEvents s s') :
    SameEvents s (device.act o e s').1 := by
  have hframe : ∀ paths : List Bytes, o.Within paths →
      (∀ q ∈ paths, ¬ isEventFile q ∧ ∀ r, q ≠ metadataPath r) → SameEvents s (device.act o e s').1 := by
    intro paths hwithin hpaths p hp
    have hsame := act_sameExcept hwithin e (SameExcept.refl paths s')
    refine ⟨(hsame p fun hmem => (hpaths p hmem).1 hp).trans (hs p hp).1,
      (hsame _ fun hmem => (hpaths _ hmem).2 p rfl).trans (hs p hp).2⟩
  cases o with
  | append path content => exact hframe [path] (by simp [Op.Within]) fun q hq => List.mem_singleton.mp hq ▸ ho
  | write path content => exact hframe [path] (by simp [Op.Within]) fun q hq => List.mem_singleton.mp hq ▸ ho
  | remove path => exact hframe [path] (by simp [Op.Within]) fun q hq => List.mem_singleton.mp hq ▸ ho
  | rename source target =>
    refine hframe [source, target] (by simp [Op.Within]) fun q hq => ?_
    rcases List.mem_cons.mp hq with rfl | hq
    · exact ho.1
    · exact List.mem_singleton.mp hq ▸ ho.2
  | _ => exact hs

theorem all_persistEventSequence (n : ℕ) : (persistEventSequence n).All Outside := by
  have houtside : ∀ p : Bytes, ascii ".journal" <:+ p ∨ ascii ".tmp" <:+ p →
      ¬ isEventFile p ∧ ∀ q, p ≠ metadataPath q := by
    rintro p (hp | hp)
    · exact ⟨fun h => ne_of_suffix hp h.2 (by decide) (by decide) (by decide) rfl,
        fun q => ne_of_suffix hp (metadata_suffix q) (by decide) (by decide) (by decide)⟩
    · exact ⟨fun h => ne_of_suffix hp h.2 (by decide) (by decide) (by decide) rfl,
        fun q => ne_of_suffix hp (metadata_suffix q) (by decide) (by decide) (by decide)⟩
  have hjournal : ¬ isEventFile eventJournalPath ∧ ∀ q, eventJournalPath ≠ metadataPath q :=
    houtside _ (Or.inl ⟨ascii "/POWERMON/state/event-sequence", by decide⟩)
  have htemporary : ¬ isEventFile eventJournalTemporary ∧ ∀ q, eventJournalTemporary ≠ metadataPath q :=
    houtside _ (Or.inr (List.suffix_append _ _))
  unfold persistEventSequence
  refine Prog.All.bind ⟨htemporary, fun _ => trivial⟩ fun _ => Prog.All.bind ⟨htemporary, fun _ => trivial⟩
    fun written => ?_
  split
  · exact Prog.All.bind ⟨htemporary, fun _ => trivial⟩ fun _ => trivial
  · exact Prog.All.bind ⟨hjournal, fun _ => trivial⟩ fun _ => ⟨⟨htemporary, hjournal⟩, fun _ => trivial⟩

/-! ### Appending -/

/-- A part of the envelope is appended. -/
structure Grown (event : DeviceEvent) (part : Bytes) (s s' : Card) : Prop where
  file : s'.lookup (eventPath event) = some (before s event ++ part)
  others : ∀ p, isEventFile p → p ≠ eventPath event → s'.lookup p = s.lookup p
  sidecars : ∀ p, isEventFile p → s'.lookup (metadataPath p) = s.lookup (metadataPath p)

theorem Grown.congr {part : Bytes} (h : Grown event part card s) (hs : SameEvents s s') :
    Grown event part card s' where
  file := (hs _ (eventPath_isEventFile event)).1.trans h.file
  others p hp hne := (hs p hp).1.trans (h.others p hp hne)
  sidecars p hp := (hs p hp).2.trans (h.sidecars p hp)

theorem grown_insert (event : DeviceEvent) (part : Bytes) (s : Card) :
    Grown event part s (s.insert (eventPath event) (before s event ++ part)) where
  file := AList.lookup_insert _
  others _ _ hne := AList.lookup_insert_ne hne
  sidecars _ _ := AList.lookup_insert_ne (eventFile_ne_metadata (eventPath_isEventFile event)).symm

/-- What an append leaves of the files of events, before its end and at its end. -/
def Appending (j : JsonLibrary) (event : DeviceEvent) (ram : EventRam) (s s' : Card) : Prop :=
  SameEvents s s' ∨ ∃ part, part <+: eventEnvelope j event ram.nextEventSequence ∧ Grown event part s s'

/-- The result of an append: the variables stay and not all of the envelope is stored, or it is. -/
def Appended (j : JsonLibrary) (event : DeviceEvent) (ram : EventRam) (s : Card) (result : EventRam × Bool)
    (s' : Card) : Prop :=
  (result = (ram, false) ∧ (SameEvents s s' ∨ ∃ part, part <+: eventEnvelope j event ram.nextEventSequence ∧
    part ≠ eventEnvelope j event ram.nextEventSequence ∧ Grown event part s s')) ∨
  (result = (EventRam.appended ram, true) ∧ ram.writable = true ∧
    Grown event (eventEnvelope j event ram.nextEventSequence) s s')

/-- A write that is honest stores all of its bytes just when it reports so. -/
theorem wp_appendFile_honest {Q : Option (ℕ × ℕ) → Card → Prop} {C : Card → Prop} (hC : C s) (hfail : Q none s)
    (hpart : ∀ part reported, part <+: content → part ≠ content → reported ≠ content.length →
      Q (some (((s.lookup path).getD []).length, reported)) (s.insert path ((s.lookup path).getD [] ++ part)))
    (hall : Q (some (((s.lookup path).getD []).length, content.length))
      (s.insert path ((s.lookup path).getD [] ++ content))) :
    wp device (fun o e _ => Honest o e) C (appendFile path content) Q s := by
  refine (wp_op _ _ _).mpr ⟨hC, fun e he => ?_⟩
  simp only [device]
  split
  · exact hfail
  · cases e with
    | cut stored reported =>
      have hstored : stored < content.length := he
      refine hpart (content.take stored) (min reported (content.length - 1)) (List.take_prefix _ _) ?_ (by omega)
      intro heq
      have hlength := congrArg List.length heq
      rw [List.length_take] at hlength
      omega
    | _ => exact hall

theorem append_spec (j : JsonLibrary) (fingerprint : Bytes) (s : Card) (event : DeviceEvent) (binding : CardBinding)
    (ram : EventRam) :
    wp device (fun o e _ => Honest o e) (Appending j event ram s) (appendEvent j fingerprint event binding ram)
      (Appended j event ram s) s := by
  have hC : Appending j event ram s s := Or.inl (SameEvents.refl s)
  have hrefused : Appended j event ram s (ram, false) s := Or.inl ⟨rfl, Or.inl (SameEvents.refl s)⟩
  unfold appendEvent
  rw [wp_ite]
  split
  · exact hrefused
  · next hready =>
    have hwritable : ram.writable = true := by
      simp only [Bool.or_eq_true, Bool.not_eq_true', decide_eq_true_eq, not_or, Bool.not_eq_false] at hready
      exact hready.1.1.1.2
    refine wp_bind'.mpr (wp_bindingHolds hC fun bound _ => ?_)
    rw [wp_ite]
    split
    · exact hrefused
    · refine wp_bind'.mpr (wp_freeBytes hC fun free => ?_)
      rw [wp_ite]
      split
      · exact hrefused
      · unfold storeEvent
        refine wp_bind'.mpr (wp_ensureDirectory hC fun directory => ?_)
        rw [wp_ite]
        split
        · exact hrefused
        · refine wp_bind'.mpr (wp_appendFile_honest hC ?_ (fun part reported hpart hne hreported => ?_) ?_)
          · rw [wp_ite, if_pos (by simp)]
            exact hrefused
          · rw [wp_ite, if_pos (by simpa using hreported)]
            exact Or.inl ⟨rfl, Or.inr ⟨part, hpart, hne, grown_insert event part s⟩⟩
          · rw [wp_ite, if_neg (by simp)]
            have hgrown := grown_insert event (eventEnvelope j event ram.nextEventSequence) s
            generalize hs1 : s.insert (eventPath event)
              (before s event ++ eventEnvelope j event ram.nextEventSequence) = s1 at hgrown
            have hrun := wp_of_all (D := device) (A := fun o e _ => Honest o e) (I := SameEvents s1)
              (fun o e t ho _ ht => act_sameEvents ho e ht) (all_persistEventSequence ram.nextEventSequence)
              (SameEvents.refl s1)
            rw [before] at hs1
            rw [hs1]
            refine wp_bind'.mpr (wp_mono (fun t ht => ?_) (fun _ t ht => ?_) hrun)
            · exact Or.inr ⟨_, List.prefix_rfl, hgrown.congr ht⟩
            · exact Or.inr ⟨rfl, hwritable, hgrown.congr ht⟩

/-! ### Mounting -/

theorem wp_readFile_honest {Q : Option Bytes → Card → Prop} {C : Card → Prop} (hC : C s)
    (h : Q (s.lookup path) s) : wp device (fun o e _ => Honest o e) C (readFile path) Q s := by
  refine (wp_op _ _ _).mpr ⟨hC, fun e he => ?_⟩
  rw [show e = .done from he]
  exact h

theorem wp_listFiles_honest {Q : List Bytes → Card → Prop} {C : Card → Prop} {directory suffix : Bytes}
    (hC : C s) (h : Q (collectFiles directory suffix s) s) :
    wp device (fun o e _ => Honest o e) C (listFiles directory suffix) Q s := by
  refine (wp_op _ _ _).mpr ⟨hC, fun e he => ?_⟩
  rw [show e = .done from he]
  exact h

/-- The lines of a file. -/
def linesAt (card : Card) (path : Bytes) : List Bytes := lines ((card.lookup path).getD [])

/-- Without sidecars, the files are counted line by line. -/
theorem wp_recoverEventSegments {Q : EventTally → Card → Prop} {C : Card → Prop} (hC : C s)
    {paths : List Bytes} (hsidecars : ∀ p ∈ paths, s.lookup (metadataPath p) = none) (t : EventTally)
    (h : Q (paths.foldl (fun t p => recoverEventLines j (linesAt s p) t) t) s) :
    wp device (fun o e _ => Honest o e) C (recoverEventSegments j paths t) Q s := by
  induction paths generalizing t with
  | nil => exact h
  | cons p paths ih =>
    unfold recoverEventSegments recoverEventSegment
    refine wp_bind'.mpr (wp_bind'.mpr (wp_readFile_honest hC (wp_bind'.mpr (wp_readFile_honest hC ?_))))
    have hnone : ∀ size, acceptMetadata j .events p (s.lookup (metadataPath p)) size none = none := by
      intro size
      rw [hsidecars p (by simp)]
      rfl
    rw [hnone]
    exact wp_bind'.mpr (wp_readFile_honest hC (ih (fun q hq => hsidecars q (by simp [hq])) _ h))

theorem stands_iff : Stands j s n ↔
    ∃ path ∈ collectFiles (ascii "/POWERMON/events/") (ascii ".events") s, n ∈ countEventLines j (linesAt s path) := by
  constructor
  · rintro ⟨path, content, hpath, hcontent, hn⟩
    have hmem : path ∈ collectFiles (ascii "/POWERMON/events/") (ascii ".events") s := by
      simp only [collectFiles, List.mem_filter, Bool.and_eq_true, List.isPrefixOf_iff_prefix,
        List.isSuffixOf_iff_suffix]
      exact ⟨AList.mem_keys.mpr (AList.lookup_isSome.mp (by simp [hcontent])), hpath⟩
    exact ⟨path, hmem, by simpa [linesAt, hcontent] using hn⟩
  · rintro ⟨path, hmem, hn⟩
    obtain ⟨hleading, hsuffix, hpresent⟩ := mem_collectFiles hmem
    obtain ⟨content, hcontent⟩ := Option.ne_none_iff_exists'.mp hpresent
    exact ⟨path, content, ⟨hleading, hsuffix⟩, hcontent, by simpa [linesAt, hcontent] using hn⟩

/-- The counter is positive, and above what stands on the card. -/
def Above (j : JsonLibrary) (card : Card) (next : ℕ) : Prop := 0 < next ∧ ∀ n, Stands j card n → n < next

/-- **A mount counts from above what stands on the card.** -/
theorem mount_spec (ram : EventRam) (hsidecars : ∀ p, isEventFile p → s.lookup (metadataPath p) = none)
    (hroom : ∀ n, Stands j s n → n + 1 < 2 ^ 64)
    (hjournal : ∀ content, s.lookup eventJournalPath = some content → parseEventJournal content + 1 < 2 ^ 64) :
    wp device (fun o e _ => Honest o e) (SameEvents s) (mountEvents j ram)
      (fun ram' t => SameEvents s t ∧ Above j s ram'.nextEventSequence) s := by
  have hC : SameEvents s s := SameEvents.refl s
  unfold mountEvents recoverEvents
  refine wp_bind'.mpr (wp_bind'.mpr (wp_listFiles_honest (C := SameEvents s) hC (wp_bind'.mpr
    (wp_recoverEventSegments (C := SameEvents s) hC (fun p hp => ?_) {} ?_))))
  · obtain ⟨hleading, hsuffix, -⟩ := mem_collectFiles hp
    exact hsidecars p ⟨hleading, hsuffix⟩
  · refine wp_bind'.mpr (wp_readFile_honest (C := SameEvents s) hC ((wp_pure ..).mpr ⟨hC, ?_⟩))
    obtain ⟨hmem, hupper⟩ := isGreatest_foldl EventTally.maximumSequence
      (fun p => {n | n ∈ countEventLines j (linesAt s p)})
      (fun t p (_ : p ∈ collectFiles (ascii "/POWERMON/events/") (ascii ".events") s) =>
        isGreatest_recoverEventLines (linesAt s p) t) {}
    have hmaximum : ((collectFiles (ascii "/POWERMON/events/") (ascii ".events") s).foldl
        (fun t p => recoverEventLines j (linesAt s p) t) {}).maximumSequence + 1 < 2 ^ 64 := by
      rcases hmem with hzero | hstands
      · rw [hzero]
        decide
      · exact hroom _ (stands_iff.mpr hstands)
    have hread : ((s.lookup eventJournalPath).map parseEventJournal).getD 0 + 1 < 2 ^ 64 := by
      cases hlookup : s.lookup eventJournalPath with
      | none => decide
      | some content => exact hjournal content hlookup
    simp only
    rw [Nat.mod_eq_of_lt (by omega)]
    refine ⟨Nat.succ_pos _, fun n hn => ?_⟩
    have hcounted := hupper (Set.mem_insert_of_mem _ (stands_iff.mp hn))
    omega

/-! ### The lines of the files -/

theorem eventEnvelope_line (hj : j.Lawful) (event : DeviceEvent) (n : ℕ) :
    ∃ init, eventEnvelope j event n = init ++ [10] ∧ (10 : UInt8) ∉ init :=
  encodeEnvelope_line (hj.newline _)

/-- A part of an envelope completes no line, and the whole of it one. -/
theorem lines_grown (hj : j.Lawful) {part : Bytes} (hpart : part <+: eventEnvelope j event n) (old : Bytes) :
    (part = eventEnvelope j event n ∧
      lines (old ++ part) = lines old ++ [unterminated old ++ eventEnvelope j event n]) ∨
    (part ≠ eventEnvelope j event n ∧ lines (old ++ part) = lines old) := by
  obtain ⟨init, henvelope, hinit⟩ := eventEnvelope_line hj event n
  by_cases hwhole : part = eventEnvelope j event n
  · refine Or.inl ⟨hwhole, ?_⟩
    have hnot : (10 : UInt8) ∉ unterminated old ++ init := by simp [newline_notMem_unterminated, hinit]
    rw [hwhole, henvelope, (lines_append old _).1, ← List.append_assoc, (lines_line hnot []).1, lines_nil]
  · refine Or.inr ⟨hwhole, ?_⟩
    have hshort : part <+: init := by
      rw [henvelope, List.prefix_concat_iff, ← henvelope] at hpart
      exact hpart.resolve_left hwhole
    have hnot : (10 : UInt8) ∉ unterminated old ++ part := by
      simp only [List.mem_append, not_or]
      exact ⟨newline_notMem_unterminated old, fun hmem => hinit (hshort.subset hmem)⟩
    rw [(lines_append old _).1, (lines_of_notMem hnot).1, List.append_nil]

/-- Every line that decodes is one that a recovery counts. -/
def Counted (j : JsonLibrary) (line : Bytes) : Prop :=
  ∀ e, decodeLine j .events line = .ok e → line.length ≤ 8193 → eventLine j line = some e.sequence

/-- **The files of events are sound**: they have no sidecars, and their lines can be counted. -/
structure SoundFiles (j : JsonLibrary) (card : Card) : Prop where
  sidecars : ∀ p, isEventFile p → card.lookup (metadataPath p) = none
  counted : ∀ p, isEventFile p → ∀ line ∈ linesAt card p, Counted j line

theorem SoundFiles.congr (h : SoundFiles j card) (hs : SameEvents card s) : SoundFiles j s where
  sidecars p hp := (hs p hp).2.trans (h.sidecars p hp)
  counted p hp := by
    rw [linesAt, (hs p hp).1]
    exact h.counted p hp

theorem Stands.congr (h : Stands j card n) (hs : SameEvents card s) : Stands j s n := by
  obtain ⟨path, content, hpath, hcontent, hn⟩ := h
  exact ⟨path, content, hpath, (hs path hpath).1.trans hcontent, hn⟩

theorem SameEvents.symm (hs : SameEvents card s) : SameEvents s card :=
  fun p hp => ⟨(hs p hp).1.symm, (hs p hp).2.symm⟩

/-- A line that is made when an envelope is appended is the envelope, if it decodes. -/
theorem counted_line (hj : j.Lawful) (htorn : TornApart j w event) (hn : w.ram.nextEventSequence < 2 ^ 64) :
    Counted j (unterminated (before w.card event) ++ eventEnvelope j event w.ram.nextEventSequence) := by
  intro e he hlength
  have hnil := htorn e he
  rw [hnil, List.nil_append] at he hlength ⊢
  obtain ⟨⟨e', he', hsequence⟩, hline⟩ := eventEnvelope_decodes hj hn event
  rw [he', Except.ok.injEq] at he
  rw [hline hlength, ← he, hsequence]

theorem sequence_line (hj : j.Lawful) (htorn : TornApart j w event) (hn : w.ram.nextEventSequence < 2 ^ 64)
    (h : eventLine j (unterminated (before w.card event) ++ eventEnvelope j event w.ram.nextEventSequence) = some n) :
    n = w.ram.nextEventSequence := by
  obtain ⟨e, he, rfl⟩ := eventLine_eq_some h
  have hnil := htorn e he
  rw [hnil, List.nil_append] at he
  obtain ⟨⟨e', he', hsequence⟩, -⟩ := eventEnvelope_decodes hj hn event
  rw [he', Except.ok.injEq] at he
  rw [← he, hsequence]

/-- What a part of the envelope changes of the lines. -/
theorem linesAt_grown (hj : j.Lawful) {part : Bytes} (hpart : part <+: eventEnvelope j event n)
    (hs : Grown event part card s) (p : Bytes) (hp : isEventFile p) :
    linesAt s p = linesAt card p ∨
      part = eventEnvelope j event n ∧ p = eventPath event ∧ linesAt s p =
        linesAt card p ++ [unterminated (before card event) ++ eventEnvelope j event n] := by
  by_cases heq : p = eventPath event
  · subst heq
    have hcontent : linesAt s (eventPath event) = lines (before card event ++ part) := by
      rw [linesAt, hs.file]
      rfl
    rcases lines_grown hj hpart (before card event) with ⟨hwhole, hlines⟩ | ⟨-, hlines⟩
    · exact Or.inr ⟨hwhole, rfl, hcontent.trans hlines⟩
    · exact Or.inl (hcontent.trans hlines)
  · exact Or.inl (by rw [linesAt, linesAt, hs.others p hp heq])

/-! ### Pages -/

theorem mem_countEventLines_of_gather {ls : List Bytes} {es : List Entry}
    (hgather : gather (lineEntries j .events) ls = some es) (hcounted : ∀ line ∈ ls, Counted j line) :
    ∀ e ∈ es, e.sequence ∈ countEventLines j ls := by
  induction ls generalizing es with
  | nil =>
    cases hgather
    simp
  | cons line ls ih =>
    obtain ⟨first, rest, hfirst, hrest, rfl⟩ := gather_cons_eq_some.mp hgather
    unfold lineEntries at hfirst
    split at hfirst
    · cases hfirst
    · next hlength =>
      cases hdecode : decodeLine j .events line with
      | error error => simp [hdecode, Except.toOption] at hfirst
      | ok e =>
        rw [hdecode] at hfirst
        cases hfirst
        have hline := hcounted line (by simp) e hdecode (by unfold maximumLine at hlength; omega)
        intro e' he'
        rw [countEventLines, hline]
        rcases List.mem_cons.mp he' with rfl | he'
        · exact List.mem_cons_self
        · exact List.mem_cons_of_mem _ (ih hrest (fun l hl => hcounted l (by simp [hl])) e' he')

theorem mem_candidates {q : HistoryQuery} (es : List Entry) (scan : Scan) (c : Entry)
    (h : c ∈ (es.foldl (observe q) scan).candidates) : c ∈ scan.candidates ∨ c ∈ es := by
  induction es generalizing scan with
  | nil => exact Or.inl h
  | cons e es ih =>
    rcases ih (observe q scan e) h with h | h
    · rcases mem_insertCandidate h with rfl | h
      · exact Or.inr List.mem_cons_self
      · exact Or.inl h
    · exact Or.inr (List.mem_cons_of_mem _ h)

/-- What a walk reads of a file stands on the card. -/
theorem stands_of_segmentEntries (hfiles : SoundFiles j card) (hpath : isEventFile path) {faults : ReadFaults}
    {q : HistoryQuery} {es : List Entry} (hes : segmentEntries j card faults .events q path = some es) {e : Entry}
    (he : e ∈ es) : Stands j card e.sequence := by
  unfold segmentEntries at hes
  split at hes
  · cases hes
    cases he
  · cases hes
  · next content hvisit =>
    split at hes
    · have hcontent : card.lookup path = some content := by
        unfold visitSegment at hvisit
        split at hvisit
        · cases hvisit
        · simp only [segmentIndex, openFile] at hvisit
          cases hopens : faults.opens .scan path <;> cases hlookup : card.lookup path <;>
            simp_all
      unfold contentEntries at hes
      split at hes
      · have hlines : linesAt card path = lines content := by simp [linesAt, hcontent]
        exact ⟨path, content, hpath, hcontent,
          mem_countEventLines_of_gather hes (hlines ▸ hfiles.counted path hpath) e he⟩
      · cases hes
    · cases hes

/-- **What is sent stands on the card.** -/
theorem page_stands (hfiles : SoundFiles j card) {faults : ReadFaults} {q : HistoryQuery}
    (hsync : q.requireSyncable = false) (hok : (readEvents j card faults q).ok = true)
    (hrecords : (readEvents j card faults q).records ≠ []) :
    Stands j card (readEvents j card faults q).lastSequence := by
  unfold readEvents readEnvelopeFiles at hok hrecords ⊢
  cases hscan : (eventFiles card).foldlM (scanSegment j card faults .events q) {} with
  | error error => simp [hscan] at hok
  | ok scan =>
    obtain ⟨es, hgather, hprocess⟩ := (foldlM_eq_ok_iff scanSegment_eq_ok (eventFiles card) {} scan).mp hscan
    have hstands : ∀ c ∈ scan.candidates, Stands j card c.sequence := by
      intro c hc
      rw [(processEntries_eq_ok es {} scan).mp hprocess |>.2] at hc
      have hmem := ((mem_candidates _ _ c hc).resolve_left (by simp))
      obtain ⟨p, hp, first, hfirst, hce⟩ := (mem_of_gather hgather c).mp (List.mem_filter.mp hmem).1
      obtain ⟨hleading, hsuffix, -⟩ := mem_collectFiles ((List.perm_insertionSort _ _).mem_iff.mp hp)
      exact stands_of_segmentEntries hfiles ⟨hleading, hsuffix⟩ hfirst hce
    simp only [hscan, finishPage, coverage, hsync, Bool.false_eq_true, if_false] at hrecords ⊢
    cases hlast : scan.candidates.getLast? with
    | none => simp [List.getLast?_eq_none_iff.mp hlast] at hrecords
    | some c =>
      have hsequence : pageLast scan.candidates [] = c.sequence := by simp [pageLast, hlast]
      rw [hsequence]
      exact hstands c (List.mem_of_getLast? hlast)

/-! ### What a run preserves -/

/-- **The world is sound**: the counter is above what stands on the card, what was sent from the card stands
on it, and what is acknowledged was sent from it. -/
structure Sound (j : JsonLibrary) (w : World) : Prop where
  files : SoundFiles j w.card
  fresh : w.ram.writable = true → Above j w.card w.ram.nextEventSequence
  sentHere : w.sentHere ≠ 0 → ∃ n, Stands j w.card n ∧ w.sentHere ≤ n
  acknowledged : w.ack ≤ w.sentHere

theorem sound_initial : Sound j {} where
  files := ⟨fun _ _ => rfl, fun _ _ line hline => by cases hline⟩
  fresh h := by cases h
  sentHere h := absurd rfl h
  acknowledged := Nat.le_refl 0

/-- The card keeps what stands, and the variables are above it. -/
theorem Sound.of_card (h : Sound j w) {ram : EventRam} (hfiles : SoundFiles j s)
    (hkeeps : ∀ n, Stands j w.card n → Stands j s n)
    (hfresh : ram.writable = true → Above j s ram.nextEventSequence) :
    Sound j { w with card := s, ram := ram } where
  files := hfiles
  fresh := hfresh
  sentHere hne := by
    obtain ⟨n, hn, hle⟩ := h.sentHere hne
    exact ⟨n, hkeeps n hn, hle⟩
  acknowledged := h.acknowledged

theorem Sound.of_sameEvents (h : Sound j w) (hs : SameEvents w.card s) {ram : EventRam}
    (hfresh : ram.writable = true → Above j w.card ram.nextEventSequence) :
    Sound j { w with card := s, ram := ram } :=
  h.of_card (h.files.congr hs) (fun _ hn => hn.congr hs) fun hw =>
    ⟨(hfresh hw).1, fun n hn => (hfresh hw).2 n (hn.congr hs.symm)⟩

/-- A part of an envelope stands for nothing, and all of it for the next sequence. -/
theorem Sound.grown (hj : j.Lawful) (h : Sound j w) (htorn : TornApart j w event)
    (hroom : w.ram.nextEventSequence + 1 < 2 ^ 64) {part : Bytes}
    (hpart : part <+: eventEnvelope j event w.ram.nextEventSequence) (hs : Grown event part w.card s) :
    SoundFiles j s ∧ (∀ n, Stands j w.card n → Stands j s n) ∧ ∀ n, Stands j s n →
      Stands j w.card n ∨ n = w.ram.nextEventSequence ∧ part = eventEnvelope j event w.ram.nextEventSequence := by
  have hnext : w.ram.nextEventSequence < 2 ^ 64 := by omega
  have hlines := linesAt_grown hj hpart hs
  refine ⟨⟨fun p hp => (hs.sidecars p hp).trans (h.files.sidecars p hp), fun p hp line hline => ?_⟩,
    fun n hn => ?_, fun n hn => ?_⟩
  · rcases hlines p hp with hsame | ⟨-, -, hmore⟩
    · exact h.files.counted p hp line (hsame ▸ hline)
    · rw [hmore, List.mem_append, List.mem_singleton] at hline
      rcases hline with hline | rfl
      · exact h.files.counted p hp line hline
      · exact counted_line hj htorn hnext
  · obtain ⟨p, hp, hcounted⟩ := stands_iff.mp hn
    obtain ⟨hleading, hsuffix, hpresent⟩ := mem_collectFiles hp
    have hfile : s.lookup p ≠ none := by
      by_cases heq : p = eventPath event
      · rw [heq, hs.file]
        simp
      · rwa [hs.others p ⟨hleading, hsuffix⟩ heq]
    obtain ⟨content, hcontent⟩ := Option.ne_none_iff_exists'.mp hfile
    refine ⟨p, content, ⟨hleading, hsuffix⟩, hcontent, ?_⟩
    have hat : lines content = linesAt s p := by simp [linesAt, hcontent]
    rw [hat]
    rcases hlines p ⟨hleading, hsuffix⟩ with hsame | ⟨-, -, hmore⟩
    · rwa [hsame]
    · rw [hmore]
      exact mem_countEventLines_append hcounted _
  · obtain ⟨p, content, hp, hcontent, hcounted⟩ := hn
    have hat : lines content = linesAt s p := by simp [linesAt, hcontent]
    rw [hat] at hcounted
    have hold : n ∈ countEventLines j (linesAt w.card p) → Stands j w.card n := by
      intro hmem
      cases hlookup : w.card.lookup p with
      | none => simp [linesAt, hlookup, lines_nil, countEventLines] at hmem
      | some old => exact ⟨p, old, hp, hlookup, by simpa [linesAt, hlookup] using hmem⟩
    rcases hlines p hp with hsame | ⟨hwhole, -, hmore⟩
    · exact Or.inl (hold (hsame ▸ hcounted))
    · rw [hmore] at hcounted
      rcases mem_countEventLines_concat hcounted with hmem | hline
      · exact Or.inl (hold hmem)
      · exact Or.inr ⟨sequence_line hj htorn hnext hline, hwhole⟩

theorem Sound.append (hj : j.Lawful) (h : Sound j w) {binding : CardBinding} {events : List Event}
    (horderly : (Action.append event binding events).Orderly j fingerprint w) :
    Sound j (w.after j fingerprint (.append event binding events)) := by
  obtain ⟨halong, htorn, hroom⟩ := horderly
  have hout := wp_run (append_spec j fingerprint w.card event binding w.ram) halong
  simp only [World.after]
  generalize run device (appendEvent j fingerprint event binding w.ram) events w.card = out at hout ⊢
  obtain ⟨s, ended⟩ := out
  -- the power is lost, the append ends without a new line, or the envelope is stored
  cases ended with
  | none =>
    rcases hout with hsame | ⟨part, hpart, hgrown⟩
    · exact h.of_sameEvents hsame fun hw => by cases hw
    · obtain ⟨hfiles, hkeeps, -⟩ := h.grown hj htorn hroom hpart hgrown
      exact h.of_card hfiles hkeeps fun hw => by cases hw
  | some result =>
    obtain ⟨result, rest⟩ := result
    rcases hout with ⟨rfl, hsame | ⟨part, hpart, hne, hgrown⟩⟩ | ⟨rfl, hwritable, hgrown⟩
    · exact h.of_sameEvents hsame h.fresh
    · obtain ⟨hfiles, hkeeps, honly⟩ := h.grown hj htorn hroom hpart hgrown
      exact h.of_card hfiles hkeeps fun hw => ⟨(h.fresh hw).1, fun n hn =>
        (h.fresh hw).2 n ((honly n hn).resolve_right fun hnew => hne hnew.2)⟩
    · obtain ⟨hfiles, hkeeps, honly⟩ := h.grown hj htorn hroom List.prefix_rfl hgrown
      have hnext : (EventRam.appended w.ram).nextEventSequence = w.ram.nextEventSequence + 1 :=
        Nat.mod_eq_of_lt hroom
      refine h.of_card hfiles hkeeps fun _ => ?_
      rw [Option.map_some, Option.getD_some, hnext]
      refine ⟨Nat.succ_pos _, fun n hn => ?_⟩
      rcases honly n hn with hold | ⟨rfl, -⟩
      · exact Nat.lt_succ_of_lt ((h.fresh hwritable).2 n hold)
      · exact Nat.lt_succ_self _

theorem Sound.mount (h : Sound j w) {events : List Event}
    (horderly : (Action.mount events).Orderly j fingerprint w) : Sound j (w.after j fingerprint (.mount events)) := by
  obtain ⟨halong, hroom, hjournal⟩ := horderly
  have hout := wp_run (mount_spec w.ram h.files.sidecars hroom hjournal) halong
  simp only [World.after]
  generalize run device (mountEvents j w.ram) events w.card = out at hout ⊢
  obtain ⟨s, ended⟩ := out
  cases ended with
  | none => exact h.of_sameEvents hout fun hw => by cases hw
  | some result => exact h.of_sameEvents hout.1 fun _ => hout.2

theorem Sound.synchronise (h : Sound j w) {after : UInt64} {faults : ReadFaults} {acknowledged : Option ℕ}
    {written : Bool} (horderly : (Action.synchronise after faults acknowledged written).Orderly j fingerprint w) :
    Sound j (w.after j fingerprint (.synchronise after faults acknowledged written)) := by
  simp only [World.after]
  split
  · exact h
  · next hpage =>
    simp only [Bool.or_eq_true, Bool.not_eq_true', decide_eq_true_eq, not_or, Bool.not_eq_false] at hpage
    have hstands := page_stands h.files rfl hpage.1 hpage.2
    refine ⟨h.files, h.fresh, fun _ => ?_, ?_⟩
    · rcases Nat.le_total w.sentHere (w.page j after faults).lastSequence with hle | hle
      · exact ⟨_, hstands, Nat.max_le.mpr ⟨hle, Nat.le_refl _⟩⟩
      · by_cases hzero : w.sentHere = 0
        · exact ⟨_, hstands, by rw [hzero]; exact Nat.max_le.mpr ⟨Nat.zero_le _, Nat.le_refl _⟩⟩
        · obtain ⟨n, hn, hsent⟩ := h.sentHere hzero
          exact ⟨n, hn, Nat.max_le.mpr ⟨hsent, hle.trans hsent⟩⟩
    · have hold : w.ack ≤ max w.sentHere (w.page j after faults).lastSequence :=
        h.acknowledged.trans (Nat.le_max_left _ _)
      cases acknowledged with
      | none => exact hold
      | some a =>
        have hnew := horderly a rfl
        simp only [Option.map_some, Option.getD_some, acknowledgeEvents, setServerEventAckSequence, raiseCursor]
        split_ifs <;> assumption

/-- **What one step preserves.** -/
theorem OrderlyStep.sound (hj : j.Lawful) (hstep : OrderlyStep j fingerprint w w') (h : Sound j w) :
    Sound j w' := by
  cases hstep with
  | act action possible orderly =>
    cases action with
    | append event binding events => exact h.append hj orderly
    | mount events => exact h.mount orderly
    | synchronise after faults acknowledged written => exact h.synchronise orderly
    | reboot => exact h.of_sameEvents (SameEvents.refl _) fun hw => by cases hw
    | replace =>
      have hack : w.ack = 0 := orderly
      exact ⟨sound_initial.files, sound_initial.fresh, sound_initial.sentHere, Nat.le_of_eq hack⟩
    | other card => exact h.of_sameEvents possible h.fresh

theorem sound_run (hj : j.Lawful) (h : ReflTransGen (OrderlyStep j fingerprint) {} w) : Sound j w := by
  induction h with
  | refl => exact sound_initial
  | tail _ hstep ih => exact hstep.sound hj ih

/-- **No event is born acknowledged** in an orderly run: an append that succeeds stores the event with a
sequence above the acknowledgement. -/
theorem born_unacknowledged (hj : j.Lawful) (hrun : ReflTransGen (OrderlyStep j fingerprint) {} w)
    {binding : CardBinding} {events rest : List Event} {ram : EventRam}
    (horderly : (Action.append event binding events).Orderly j fingerprint w)
    (hends : run device (appendEvent j fingerprint event binding w.ram) events w.card = (s, some ((ram, true), rest))) :
    w.ack < w.ram.nextEventSequence ∧
      s.lookup (eventPath event) =
        some (before w.card event ++ eventEnvelope j event w.ram.nextEventSequence) := by
  have h := sound_run hj hrun
  have hout := wp_run (append_spec j fingerprint w.card event binding w.ram) horderly.1
  rw [hends] at hout
  rcases hout with ⟨hresult, -⟩ | ⟨-, hwritable, hgrown⟩
  · cases hresult
  · refine ⟨?_, hgrown.file⟩
    obtain ⟨hpositive, habove⟩ := h.fresh hwritable
    by_cases hzero : w.sentHere = 0
    · exact (h.acknowledged.trans_eq hzero).trans_lt hpositive
    · obtain ⟨n, hn, hsent⟩ := h.sentHere hzero
      exact (h.acknowledged.trans hsent).trans_lt (habove n hn)

/-! ### A card is replaced -/

def startEvent : DeviceEvent where
  code := ascii "device_started"
  severity := ascii "info"
  utcMs := 1784505600000
  bootId := ascii "11111111-1111-4111-8111-111111111111"

def mounted : World := World.after textJson [] {} (.mount (List.replicate 8 .done))
def stored : World := mounted.after textJson [] (.append startEvent {} (List.replicate 20 .done))
def acknowledged : World := stored.after textJson [] (.synchronise 0 {} (some 1) true)
def replaced : World := (acknowledged.after textJson [] .replace).after textJson [] (.mount (List.replicate 8 .done))

def stopEvent : DeviceEvent := { startEvent with code := ascii "device_stopped" }

theorem acknowledged_state :
    ((Along device (fun o e _ => Honest o e) (appendEvent textJson [] startEvent {} mounted.ram) (List.replicate 20 .done)
        mounted.card ∧ unterminated (before mounted.card startEvent) = [] ∧
      mounted.ram.nextEventSequence + 1 < 2 ^ 64) ∧ 1 ≤ (stored.page textJson 0 {}).lastSequence) ∧
    (Along device (fun o e _ => Honest o e) (appendEvent textJson [] stopEvent {} acknowledged.ram)
        (List.replicate 20 .done) acknowledged.card ∧
      unterminated (before acknowledged.card stopEvent) = [] ∧ acknowledged.ram.nextEventSequence + 1 < 2 ^ 64) ∧
        (run device (appendEvent textJson [] stopEvent {} acknowledged.ram) (List.replicate 20 .done)
          acknowledged.card).2 = some ((EventRam.appended acknowledged.ram, true), List.replicate 13 .done) := by
  decide +kernel

theorem acknowledged_orderly : ReflTransGen (OrderlyStep textJson []) {} acknowledged := by
  have hmount : OrderlyStep textJson [] {} mounted := by
    refine .act _ trivial ⟨by decide, ?_, ?_⟩
    · rintro n ⟨path, content, -, hcontent, -⟩
      cases hcontent
    · intro content hcontent
      cases hcontent
  obtain ⟨⟨horderly, hpage⟩, -⟩ := acknowledged_state
  have happend : OrderlyStep textJson [] mounted stored := .act _ trivial (orderly_append horderly)
  have hsynchronise : OrderlyStep textJson [] stored acknowledged := by
    refine .act _ (fun a ha => ?_) (fun a ha => ?_)
    · cases ha
      exact hpage.trans (Nat.le_max_right _ _)
    · cases ha
      exact hpage.trans (Nat.le_max_right _ _)
  exact ((ReflTransGen.single hmount).tail happend).tail hsynchronise

theorem run_append {ram : EventRam} {events rest : List Event} {result : EventRam × Bool}
    (h : (run device (appendEvent textJson [] event {} ram) events s).2 = some (result, rest)) :
    run device (appendEvent textJson [] event {} ram) events s =
      ((run device (appendEvent textJson [] event {} ram) events s).1, some (result, rest)) := Prod.ext rfl h

/-- The second event is the next one. -/
theorem born_unacknowledged_second : acknowledged.ack < acknowledged.ram.nextEventSequence ∧
    (run device (appendEvent textJson [] stopEvent {} acknowledged.ram) (List.replicate 20 .done)
      acknowledged.card).1.lookup (eventPath stopEvent) =
        some (before acknowledged.card stopEvent ++ eventEnvelope textJson stopEvent acknowledged.ram.nextEventSequence) := by
  obtain ⟨-, horderly, hends⟩ := acknowledged_state
  exact born_unacknowledged textJson_lawful acknowledged_orderly (orderly_append horderly) (run_append hends)

theorem OrderlyStep.eventStep (h : OrderlyStep j fingerprint w w') : EventStep j fingerprint w w' := by
  cases h with
  | act action possible orderly => exact .act action possible

theorem replaced_run : ReflTransGen (EventStep textJson []) {} replaced :=
  ((ReflTransGen.mono (fun _ _ => OrderlyStep.eventStep) _ _ acknowledged_orderly).tail (.act .replace trivial)).tail
    (.act (.mount (List.replicate 8 .done)) trivial)

/-- **An event is born acknowledged** on a card that replaced one whose events are acknowledged. -/
theorem born_acknowledged : ReflTransGen (EventStep textJson []) {} replaced ∧
    ((run device (appendEvent textJson [] startEvent {} replaced.ram) (List.replicate 20 .done)
      replaced.card).2.map fun result => result.1.2) = some true ∧
    replaced.ram.nextEventSequence ≤ replaced.ack :=
  ⟨replaced_run, by decide +kernel⟩

end PowerMonitor.Storage.EventAcks
