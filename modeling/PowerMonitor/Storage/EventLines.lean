import Mathlib.Logic.Relation
import PowerMonitor.Storage.EventAcks

/-! # The lines of stored events

Nothing trims a file of events: a recovery only reads it, and the next event is appended to whatever is there. As
long as every write of an event stores its whole envelope or nothing, each event that was reported as stored is a
line of its file, and no page of events fails on an unfinished line (`stored_lines`). An event that is cut short
takes the next one with it (`joined_line`). -/

namespace PowerMonitor.Storage.EventLines

open PowerMonitor.Lib.Binary PowerMonitor.Lib.Lines PowerMonitor.Lib.Json PowerMonitor.Lib.Program
open PowerMonitor.Storage.RecordFormat PowerMonitor.Storage.Reading PowerMonitor.Storage.Media
open PowerMonitor.Storage.Segment PowerMonitor.Storage.ReadPage PowerMonitor.Storage.SdStorage
open PowerMonitor.Storage.Frames PowerMonitor.Storage.Faults
open PowerMonitor.Storage.Events
open PowerMonitor.Storage.EventAcks (isEventFile SameEvents Honest before Outside Grown Appending Appended linesAt
  append_spec act_sameEvents all_persistEventSequence eventPath_isEventFile eventEnvelope_line eventEnvelope_decodes
  lines_grown startEvent stopEvent)
open PowerMonitor.Storage.CleanupRecovery (mem_collectFiles)
open Relation (ReflTransGen)

/-! ### Runs -/

/-- The device and its card, and the events that were reported as stored, with their sequences. -/
structure World where
  card : Card := ∅
  ram : EventRam := {}
  stored : List (DeviceEvent × ℕ) := []

/-- What happens to events: among the rest, the retention deletes a file, and other parts of the storage work. -/
inductive Action
  | append (event : DeviceEvent) (binding : CardBinding) (events : List Event)
  | recover (events : List Event)
  | delete (path : Bytes)
  | reboot
  | other (card : Card)

/-- The world after an action; when the power is lost, so are the variables. -/
def World.after (j : JsonLibrary) (fingerprint : Bytes) (w : World) : Action → World
  | .append event binding events =>
    let out := run device (appendEvent j fingerprint event binding w.ram) events w.card
    let reported := (out.2.map fun result => result.1.2).getD false
    { card := out.1
      ram := (out.2.map fun result => result.1.1).getD {}
      stored := if reported then (event, w.ram.nextEventSequence) :: w.stored else w.stored }
  | .recover events =>
    let out := run device (mountEvents j w.ram) events w.card
    { w with card := out.1, ram := (out.2.map Prod.fst).getD {} }
  | .delete path =>
    { w with card := w.card.erase path, stored := w.stored.filter fun a => eventPath a.1 ≠ path }
  | .reboot => { w with ram := {} }
  | .other card => { w with card := card }

/-- **What can happen**: a write that is cut short reports so, and the other parts leave the files of events. -/
def Action.Possible (j : JsonLibrary) (fingerprint : Bytes) (w : World) : Action → Prop
  | .append event binding events =>
    Along device (fun o e _ => Honest o e) (appendEvent j fingerprint event binding w.ram) events w.card
  | .other card => ∀ p, isEventFile p → card.lookup p = w.card.lookup p
  | _ => True

/-- A write at the end of a file stores all of its bytes, or none. -/
def Whole : Op → Event → Prop
  | .append _ content, .cut stored _ => stored = 0 ∨ content.length ≤ stored
  | _, _ => True

instance (o : Op) (e : Event) : Decidable (Whole o e) :=
  match o, e with
  | .append _ content, .cut stored _ => inferInstanceAs (Decidable (stored = 0 ∨ content.length ≤ stored))
  | .append _ _, .done | .append _ _, .failed | .append _ _, .free _ | .append _ _, .missing _
  | .read _, _ | .exists _, _ | .list _ _, _ | .write _ _, _ | .remove _, _ | .rename _ _, _ | .ensureDirectory _, _
  | .freeBytes, _ => .isTrue trivial

/-- **No event is cut short.** -/
def Action.Uncut (j : JsonLibrary) (fingerprint : Bytes) (w : World) : Action → Prop
  | .append event binding events =>
    Along device (fun o e _ => Whole o e) (appendEvent j fingerprint event binding w.ram) events w.card
  | _ => True

inductive Step (j : JsonLibrary) (fingerprint : Bytes) (w : World) : World → Prop
  | act (action : Action) (possible : action.Possible j fingerprint w) :
      Step j fingerprint w (w.after j fingerprint action)

inductive UncutStep (j : JsonLibrary) (fingerprint : Bytes) (w : World) : World → Prop
  | act (action : Action) (possible : action.Possible j fingerprint w) (uncut : action.Uncut j fingerprint w) :
      UncutStep j fingerprint w (w.after j fingerprint action)

variable {j : JsonLibrary} {fingerprint : Bytes} {w w' : World} {card s s' : Card} {event : DeviceEvent}
variable {path content : Bytes} {n : ℕ}

/-! ### Pages -/

/-- The page fails on a line that is no event, on an unfinished one, or on one that is too long though no event is. -/
def FailsOnTornBytes (j : JsonLibrary) (card : Card) (page : HistoryPage) : Prop :=
  page.errorCode = HistoryError.recordCorrupt.code ∨ page.errorCode = HistoryError.recordJsonInvalid.code ∨
    page.errorCode = HistoryError.storageReadIncomplete.code ∨
    (page.errorCode = HistoryError.recordExceedsLineLimit.code ∧ ∀ p, isEventFile p → ∀ line ∈ linesAt card p,
      (∃ e, decodeLine j .events line = .ok e) → line.length ≤ maximumLine)

/-- **Every line is an event**, and the files end with a line. -/
structure AllEvents (j : JsonLibrary) (card : Card) : Prop where
  ended : ∀ p, isEventFile p → unterminated ((card.lookup p).getD []) = []
  events : ∀ p, isEventFile p → ∀ line ∈ linesAt card p, ∃ e, decodeLine j .events line = .ok e

/-- A walk that fails does so at an element. -/
theorem foldlM_error {α σ ε : Type} {step : σ → α → Except ε σ} {l : List α} {s : σ} {e : ε}
    (h : l.foldlM step s = .error e) : ∃ x ∈ l, ∃ t, step t x = .error e := by
  induction l generalizing s with
  | nil => cases h
  | cons x l ih =>
    rw [List.foldlM_cons] at h
    cases hx : step s x with
    | error e' =>
      rw [hx] at h
      cases h
      exact ⟨x, List.mem_cons_self, s, hx⟩
    | ok t =>
      rw [hx] at h
      obtain ⟨y, hy, ht⟩ := ih h
      exact ⟨y, List.mem_cons_of_mem _ hy, ht⟩

/-- A line of an event only fails a page if it is too long, or its payload is. -/
theorem scanLine_error {q : HistoryQuery} {scan : Scan} {line : Bytes} {e : HistoryError}
    (hevent : ∃ entry, decodeLine j .events line = .ok entry) (h : scanLine j .events q scan line = .error e) :
    e = .recordExceedsPageLimit ∨ (e = .recordExceedsLineLimit ∧ maximumLine < line.length) := by
  obtain ⟨entry, hentry⟩ := hevent
  unfold scanLine at h
  split at h
  · next hlong =>
    cases h
    exact Or.inr ⟨rfl, hlong⟩
  · have hentries : processEntry q scan entry = .error e := by
      simpa [processLine, hentry, bind, Except.bind] using h
    unfold processEntry at hentries
    split_ifs at hentries
    cases hentries
    exact Or.inl rfl

/-- An unfinished line of the first bytes is the start of a line. -/
theorem unterminated_starts {read rest : Bytes} (hended : unterminated (read ++ rest) = [])
    (hne : unterminated read ≠ []) : ∃ line ∈ lines (read ++ rest), unterminated read <+: line := by
  rw [(lines_append read rest).2] at hended
  rw [(lines_append read rest).1]
  have hnewline : (10 : UInt8) ∈ rest := by
    by_contra hnot
    have hnone : (10 : UInt8) ∉ unterminated read ++ rest := by
      simp [newline_notMem_unterminated, hnot]
    rw [(lines_of_notMem hnone).2, List.append_eq_nil_iff] at hended
    exact hne hended.1
  obtain ⟨start, later, rfl, hstart⟩ := List.eq_append_cons_of_mem hnewline
  have hnot : (10 : UInt8) ∉ unterminated read ++ start := by
    simp [newline_notMem_unterminated, hstart]
  have hlines : lines (unterminated read ++ (start ++ 10 :: later)) =
      (unterminated read ++ start ++ [10]) :: lines later := by
    rw [← List.append_assoc]
    exact (lines_line hnot later).1
  refine ⟨unterminated read ++ start ++ [10], ?_, ?_⟩
  · simp [hlines]
  · rw [List.append_assoc]
    exact List.prefix_append _ _

/-- **A file of events** is read without an error of its lines, but for those that are too long. -/
theorem scanContent_events {q : HistoryQuery} {readFails : Option ℕ} {scan : Scan} {e : HistoryError}
    (hended : unterminated content = [])
    (hevents : ∀ line ∈ lines content, ∃ entry, decodeLine j .events line = .ok entry)
    (h : scanContent j .events q content readFails scan = .error e) :
    e = .recordExceedsPageLimit ∨ e = .storageReadFailed ∨
      (e = .recordExceedsLineLimit ∧ ∃ line ∈ lines content, maximumLine < line.length) := by
  obtain ⟨read, rest, hread, hnone, hscan⟩ : ∃ read rest, read ++ rest = content ∧ (readFails = none → read = content) ∧
      (do let scan ← (lines read).foldlM (scanLine j .events q) scan
          scanRest readFails (unterminated read)
          return scan : Except HistoryError Scan) = .error e := by
    cases readFails with
    | none => exact ⟨content, [], List.append_nil _, fun _ => rfl, h⟩
    | some k => exact ⟨content.take k, content.drop k, List.take_append_drop .., fun hk => (by cases hk), h⟩
  have hsub : ∀ line ∈ lines read, line ∈ lines content := by
    intro line hline
    rw [← hread, (lines_append read rest).1]
    exact List.mem_append_left _ hline
  cases hfold : (lines read).foldlM (scanLine j .events q) scan with
  | error e' =>
    rw [hfold] at hscan
    cases hscan
    obtain ⟨line, hline, t, herror⟩ := foldlM_error hfold
    rcases scanLine_error (hevents line (hsub line hline)) herror with hpage | ⟨hlimit, hlong⟩
    · exact Or.inl hpage
    · exact Or.inr (Or.inr ⟨hlimit, line, hsub line hline, hlong⟩)
  | ok scan' =>
    have hrest : scanRest readFails (unterminated read) = .error e := by
      rw [hfold] at hscan
      cases hr : scanRest readFails (unterminated read) with
      | error e' => simpa [hr, bind, Except.bind] using hscan
      | ok _ => simp [hr, bind, Except.bind, pure, Except.pure] at hscan
    unfold scanRest at hrest
    split_ifs at hrest with hlong hfails hunfinished
    · cases hrest
      have hne : unterminated read ≠ [] := by
        intro hnil
        rw [hnil] at hlong
        exact absurd hlong (Nat.not_lt_zero _)
      obtain ⟨line, hline, hstart⟩ := unterminated_starts (hread ▸ hended) hne
      exact Or.inr (Or.inr ⟨rfl, line, hread ▸ hline, hlong.trans_le hstart.length_le⟩)
    · cases hrest
      exact Or.inr (Or.inl rfl)
    · rw [hnone (by simpa using hfails)] at hunfinished
      exact absurd hended hunfinished

theorem code_injective {e e' : HistoryError} (h : e.code = e'.code) : e = e' := by
  cases e <;> cases e' <;> first | rfl | exact absurd h (by decide)

theorem code_ne_nil (e : HistoryError) : e.code ≠ [] := by
  cases e <;> decide

theorem visitSegment_events (faults : ReadFaults) (q : HistoryQuery) (path : Bytes) :
    visitSegment j card faults .events q path = .skip ∨
      ∃ content, card.lookup path = some content ∧ visitSegment j card faults .events q path = .read content := by
  unfold visitSegment segmentIndex
  split
  · exact Or.inl rfl
  · cases hopen : openFile card faults .scan path with
    | none => exact Or.inl rfl
    | some content =>
      refine Or.inr ⟨content, ?_, rfl⟩
      unfold openFile at hopen
      split at hopen
      · exact hopen
      · cases hopen

/-- **No page of events fails on torn bytes** while every line is an event. -/
theorem AllEvents.readEvents (h : AllEvents j card) (faults : ReadFaults) (q : HistoryQuery) :
    ¬ FailsOnTornBytes j card (Events.readEvents j card faults q) := by
  unfold Events.readEvents readEnvelopeFiles
  split
  · next e herror =>
    obtain ⟨path, hpath, scan, hscan⟩ := foldlM_error herror
    have hfile : isEventFile path := by
      rw [eventFiles, List.mem_insertionSort] at hpath
      exact ⟨(mem_collectFiles hpath).1, (mem_collectFiles hpath).2.1⟩
    have hkinds : e = .recordExceedsPageLimit ∨ e = .storageReadFailed ∨
        (e = .recordExceedsLineLimit ∧ ∃ line ∈ linesAt card path, maximumLine < line.length) := by
      unfold scanSegment at hscan
      rcases @visitSegment_events j card faults q path with hvisit | ⟨content, hcontent, hvisit⟩
      · rw [hvisit] at hscan
        cases hscan
      · rw [hvisit] at hscan
        have hended := h.ended path hfile
        have hevents := h.events path hfile
        unfold linesAt at hevents ⊢
        rw [hcontent, Option.getD_some] at hended hevents ⊢
        exact scanContent_events hended hevents hscan
    have hcodes (x : HistoryError) (hx : ({ errorCode := e.code } : HistoryPage).errorCode = x.code) : e = x :=
      code_injective hx
    rintro (hcode | hcode | hcode | ⟨hcode, hfits⟩)
    · rcases hkinds with rfl | rfl | ⟨rfl, -⟩ <;> cases hcodes _ hcode
    · rcases hkinds with rfl | rfl | ⟨rfl, -⟩ <;> cases hcodes _ hcode
    · rcases hkinds with rfl | rfl | ⟨rfl, -⟩ <;> cases hcodes _ hcode
    · rcases hkinds with rfl | rfl | ⟨-, line, hline, hlong⟩
      · cases hcodes _ hcode
      · cases hcodes _ hcode
      · exact absurd (hfits path hfile line hline (h.events path hfile line hline)) (Nat.not_le_of_lt hlong)
  · have hnone (x : HistoryError) : ([] : Bytes) ≠ x.code := (code_ne_nil x).symm
    rintro (hcode | hcode | hcode | ⟨hcode, -⟩)
    · exact hnone _ hcode
    · exact hnone _ hcode
    · exact hnone _ hcode
    · exact hnone _ hcode

/-! ### Appending -/

theorem AllEvents.congr (h : AllEvents j s)
    (hsame : ∀ p, isEventFile p → (s'.lookup p).getD [] = (s.lookup p).getD []) : AllEvents j s' where
  ended p hp := by
    rw [hsame p hp]
    exact h.ended p hp
  events p hp := by
    rw [linesAt, hsame p hp]
    exact h.events p hp

theorem AllEvents.erase (h : AllEvents j s) (path : Bytes) : AllEvents j (s.erase path) := by
  have hlookup (p : Bytes) : (s.erase path).lookup p = s.lookup p ∨ (s.erase path).lookup p = none := by
    by_cases heq : p = path
    · rw [heq]
      exact Or.inr (AList.lookup_erase ..)
    · exact Or.inl (AList.lookup_erase_ne heq)
  constructor
  · intro p hp
    rcases hlookup p with hsame | hnone
    · rw [hsame]
      exact h.ended p hp
    · rw [hnone]
      rfl
  · intro p hp
    unfold linesAt
    rcases hlookup p with hsame | hnone
    · rw [hsame]
      exact h.events p hp
    · rw [hnone]
      exact fun line hline => absurd hline List.not_mem_nil

/-- An envelope of an event is a line that decodes. -/
theorem eventEnvelope_reads (hj : j.Lawful) (event : DeviceEvent) (n : ℕ) :
    ∃ e, decodeLine j .events (eventEnvelope j event n) = .ok e := by
  obtain ⟨view, hview, -⟩ := hj.readsBack _ (EventAcks.nodup_eventDocument event n)
  unfold decodeLine eventEnvelope
  rw [decodeEnvelope_encodeEnvelope]
  simp only [hview]
  exact ⟨_, rfl⟩

/-- A whole envelope is one more line. -/
theorem lines_append_envelope (hj : j.Lawful) (event : DeviceEvent) (n : ℕ) {old : Bytes}
    (hold : unterminated old = []) : lines (old ++ eventEnvelope j event n) = lines old ++ [eventEnvelope j event n] ∧
      unterminated (old ++ eventEnvelope j event n) = [] := by
  obtain ⟨init, henvelope, hinit⟩ := eventEnvelope_line hj event n
  rw [(lines_append _ _).1, (lines_append _ _).2, hold, List.nil_append, henvelope]
  constructor
  · rw [(lines_line hinit []).1, lines_nil]
  · rw [(lines_line hinit []).2, unterminated_nil]

theorem AllEvents.insert (hj : j.Lawful) (h : AllEvents j s) (event : DeviceEvent) (n : ℕ) :
    AllEvents j (s.insert (eventPath event) (before s event ++ eventEnvelope j event n)) := by
  obtain ⟨hlines, hended⟩ := lines_append_envelope hj event n (h.ended _ (eventPath_isEventFile event))
  constructor
  · intro p hp
    by_cases heq : p = eventPath event
    · rw [heq, AList.lookup_insert, Option.getD_some]
      exact hended
    · rw [AList.lookup_insert_ne heq]
      exact h.ended p hp
  · intro p hp line hline
    unfold linesAt at hline
    by_cases heq : p = eventPath event
    · rw [heq, AList.lookup_insert, Option.getD_some] at hline
      unfold before at hline
      rw [hlines, List.mem_append, List.mem_singleton] at hline
      rcases hline with hline | rfl
      · exact h.events _ (eventPath_isEventFile event) line hline
      · exact eventEnvelope_reads hj event n
    · rw [AList.lookup_insert_ne heq] at hline
      exact h.events p hp line hline

/-- The operations of an append: it writes the envelope at the end of the event's file, and no other. -/
def Appends (j : JsonLibrary) (event : DeviceEvent) (n : ℕ) (o : Op) : Prop :=
  Outside o ∨ o = .append (eventPath event) (eventEnvelope j event n)

theorem act_allEvents (hj : j.Lawful) {o : Op} (ho : Appends j event n o) {e : Event} (he : Whole o e)
    (h : AllEvents j s) : AllEvents j (device.act o e s).1 := by
  rcases ho with ho | rfl
  · exact h.congr fun p hp => by rw [(act_sameEvents ho e (EventAcks.SameEvents.refl s) p hp).1]
  · have hall : AllEvents j (s.insert (eventPath event)
        ((s.lookup (eventPath event)).getD [] ++ eventEnvelope j event n)) := h.insert hj event n
    cases e with
    | cut stored reported =>
      simp only [device, written, reduceCtorEq, if_false]
      rcases he with rfl | hle
      · refine h.congr fun p hp => ?_
        by_cases heq : p = eventPath event
        · rw [heq, AList.lookup_insert, List.take_zero, List.append_nil, Option.getD_some]
        · rw [AList.lookup_insert_ne heq]
      · rw [List.take_of_length_le hle]
        exact hall
    | failed => exact h
    | done => exact hall
    | missing paths => exact hall
    | free bytes => exact hall

theorem outside_of_within {o : Op} (h : o.Within []) : Outside o := by
  cases o with
  | append path content => cases h
  | write path content => cases h
  | remove path => cases h
  | rename source target => cases h.1
  | _ => trivial

theorem all_appendEvent (event : DeviceEvent) (binding : CardBinding) (ram : EventRam) :
    (appendEvent j fingerprint event binding ram).All (Appends j event ram.nextEventSequence) := by
  have houtside {α : Type} {p : CardProg α} (hp : p.All Outside) :
      p.All (Appends j event ram.nextEventSequence) := hp.mono fun _ => Or.inl
  unfold appendEvent storeEvent
  refine all_ite trivial (.bind (houtside ((all_bindingHolds [] binding).mono fun _ => outside_of_within)) fun bound => ?_)
  refine all_ite trivial (.bind (houtside ((Prog.all_op _).mpr trivial)) fun free => all_ite trivial ?_)
  refine .bind (houtside ((Prog.all_op _).mpr trivial)) fun directory => all_ite trivial ?_
  refine .bind ((Prog.all_op _).mpr (Or.inr rfl)) fun written => all_ite trivial ?_
  exact .bind (houtside (all_persistEventSequence _)) fun _ => trivial

/-- A recovery only reads. -/
theorem all_mountEvents (ram : EventRam) : (mountEvents j ram).All (Op.Within []) := by
  have hsegments (paths : List Bytes) : ∀ t, (recoverEventSegments j paths t).All (Op.Within []) := by
    induction paths with
    | nil => exact fun t => trivial
    | cons path paths ih =>
      intro t
      unfold recoverEventSegments recoverEventSegment recoverEventFile
      refine .bind (.bind ((Prog.all_op _).mpr trivial) fun sidecar => .bind ((Prog.all_op _).mpr trivial)
        fun record => ?_) fun t' => ih t'
      split
      · exact .bind ((Prog.all_op _).mpr trivial) fun _ => trivial
      · exact all_ite trivial (.bind ((Prog.all_op _).mpr trivial) fun _ => trivial)
  unfold mountEvents recoverEvents
  refine .bind (.bind ((Prog.all_op _).mpr trivial) fun files => .bind (hsegments _ _) fun t => ?_) fun _ => trivial
  exact .bind ((Prog.all_op _).mpr trivial) fun _ => trivial

/-! ### What every run keeps -/

/-- **What every run without cut events keeps**: every line is an event, and those reported as stored are there. -/
structure Kept (j : JsonLibrary) (w : World) : Prop where
  all : AllEvents j w.card
  stored : ∀ a ∈ w.stored, eventEnvelope j a.1 a.2 ∈ linesAt w.card (eventPath a.1)

theorem Kept.of_same (h : Kept j w) {ram : EventRam}
    (hsame : ∀ p, isEventFile p → s.lookup p = w.card.lookup p) : Kept j { w with card := s, ram := ram } where
  all := h.all.congr fun p hp => by rw [hsame p hp]
  stored a ha := by
    rw [linesAt, hsame _ (eventPath_isEventFile a.1)]
    exact h.stored a ha

/-- A line that is there stays while the files grow. -/
theorem Grown.lines (hj : j.Lawful) (h : AllEvents j s) {part : Bytes} (hpart : part <+: eventEnvelope j event n)
    (hs : Grown event part s s') (hpath : isEventFile path) {line : Bytes} (hline : line ∈ linesAt s path) :
    line ∈ linesAt s' path := by
  by_cases heq : path = eventPath event
  · subst heq
    have hended := h.ended _ hpath
    unfold linesAt at hline ⊢
    rw [hs.file, Option.getD_some]
    rcases lines_grown hj hpart (before s event) with ⟨-, hmore⟩ | ⟨-, hsame⟩
    · rw [hmore]
      exact List.mem_append_left _ hline
    · rw [hsame]
      exact hline
  · unfold linesAt at hline ⊢
    rw [hs.others path hpath heq]
    exact hline

theorem Kept.append (hj : j.Lawful) (h : Kept j w) {binding : CardBinding} {events : List Event}
    (hpossible : (Action.append event binding events).Possible j fingerprint w)
    (huncut : (Action.append event binding events).Uncut j fingerprint w) :
    Kept j (w.after j fingerprint (.append event binding events)) := by
  have hall := wp_run (wp_of_all (D := device) (A := fun o e _ => Whole o e) (I := AllEvents j)
    (fun o e t ho he ht => act_allEvents hj ho he ht) (all_appendEvent event binding w.ram) h.all) huncut
  have hout := wp_run (append_spec j fingerprint w.card event binding w.ram) hpossible
  simp only [World.after]
  generalize run device (appendEvent j fingerprint event binding w.ram) events w.card = out at hall hout ⊢
  obtain ⟨s, ended⟩ := out
  have hkept (hs : Appending j event w.ram w.card s) :
      ∀ a ∈ w.stored, eventEnvelope j a.1 a.2 ∈ linesAt s (eventPath a.1) := by
    intro a ha
    have hfile := eventPath_isEventFile a.1
    rcases hs with hsame | ⟨part, hpart, hgrown⟩
    · rw [linesAt, (hsame _ hfile).1]
      exact h.stored a ha
    · exact Grown.lines hj h.all hpart hgrown hfile (h.stored a ha)
  have hcard := hall.state
  -- the power is lost, the event is refused, or it is stored
  cases ended with
  | none => exact ⟨hcard, hkept hout⟩
  | some result =>
    obtain ⟨result, rest⟩ := result
    rcases hout with ⟨rfl, hsame | ⟨part, hpart, -, hgrown⟩⟩ | ⟨rfl, -, hgrown⟩
    · exact ⟨hcard, hkept (Or.inl hsame)⟩
    · exact ⟨hcard, hkept (Or.inr ⟨part, hpart, hgrown⟩)⟩
    · refine ⟨hcard, List.forall_mem_cons.mpr ⟨?_, hkept (Or.inr ⟨_, List.prefix_rfl, hgrown⟩)⟩⟩
      have hended : unterminated (before w.card event) = [] := h.all.ended _ (eventPath_isEventFile event)
      unfold linesAt
      rw [hgrown.file, Option.getD_some, (lines_append_envelope hj event _ hended).1]
      exact List.mem_append_right _ (List.mem_singleton_self _)

theorem UncutStep.kept (hj : j.Lawful) (hstep : UncutStep j fingerprint w w') (h : Kept j w) : Kept j w' := by
  cases hstep with
  | act action possible uncut =>
    cases action with
    | append event binding events => exact h.append hj possible uncut
    | recover events =>
      have hspec : wp device (fun _ _ _ => True) (SameExcept [] w.card) (mountEvents j w.ram)
          (fun _ => SameExcept [] w.card) w.card := wp_sameExcept (all_mountEvents w.ram) w.card
      have halong : Along device (fun _ _ _ => True) (mountEvents j w.ram) events w.card :=
        along_of_forall _ _ fun _ _ _ _ => trivial
      exact h.of_same fun p _ => (wp_run hspec halong).state p List.not_mem_nil
    | delete path =>
      refine ⟨h.all.erase path, fun a ha => ?_⟩
      obtain ⟨hstored, hne⟩ := List.mem_filter.mp ha
      simp only [World.after, linesAt]
      rw [AList.lookup_erase_ne (by simpa using hne)]
      exact h.stored a hstored
    | reboot => exact ⟨h.all, h.stored⟩
    | other card => exact h.of_same possible

/-- **In every run in which no event is cut short**, each event that was reported as stored is a line of its file that
decodes, and no page of events fails on torn bytes. -/
theorem stored_lines (hj : j.Lawful) (hstart : AllEvents j card)
    (hrun : ReflTransGen (UncutStep j fingerprint) { card := card } w) :
    (∀ a ∈ w.stored, eventEnvelope j a.1 a.2 ∈ linesAt w.card (eventPath a.1) ∧
      ∃ e, decodeLine j .events (eventEnvelope j a.1 a.2) = .ok e) ∧
    ∀ faults q, ¬ FailsOnTornBytes j w.card (readEvents j w.card faults q) := by
  have hkept : Kept j w := by
    induction hrun with
    | refl => exact ⟨hstart, fun a ha => absurd ha List.not_mem_nil⟩
    | tail _ hstep ih => exact hstep.kept hj ih
  exact ⟨fun a ha => ⟨hkept.stored a ha, eventEnvelope_reads hj a.1 a.2⟩, hkept.all.readEvents⟩

/-! ### An event that is cut short -/

def mounted : World := World.after textJson [] {} (.recover (List.replicate 8 .done))

/-- The first event of the day. -/
def started : World := mounted.after textJson [] (.append startEvent {} (List.replicate 20 .done))

/-- The card takes only the first ten bytes of the next one. -/
def cutShort : World := started.after textJson [] (.append stopEvent {} [.done, .done, .cut 10 10])

/-- The event after it is reported as stored. -/
def joined : World := cutShort.after textJson [] (.append startEvent {} (List.replicate 20 .done))

/-- An append whose operations work. -/
theorem appended_step {binding : CardBinding} {count : ℕ} : UncutStep j fingerprint w
    (w.after j fingerprint (.append event binding (List.replicate count .done))) := by
  refine .act _ (along_of_forall _ _ fun e he o s => ?_) (along_of_forall _ _ fun e he o s => ?_)
  · rw [List.eq_of_mem_replicate he]
    cases o <;> trivial
  · rw [List.eq_of_mem_replicate he]
    cases o <;> trivial

theorem started_run : ReflTransGen (UncutStep textJson []) {} started := by
  have hmount : UncutStep textJson [] {} mounted := .act _ trivial trivial
  exact (ReflTransGen.single hmount).tail appended_step

theorem honest_step {binding : CardBinding} {events : List Event}
    (h : Along device (fun o e _ => Honest o e) (appendEvent j fingerprint event binding w.ram) events w.card) :
    Step j fingerprint w (w.after j fingerprint (.append event binding events)) := .act _ h

theorem UncutStep.step (h : UncutStep j fingerprint w w') : Step j fingerprint w w' := by
  cases h with
  | act action possible uncut => exact .act action possible

/-- The first event is a line of its file. -/
theorem started_line : (startEvent, 1) ∈ started.stored ∧
    eventEnvelope textJson startEvent 1 ∈ linesAt started.card (eventPath startEvent) := by
  have hstored : (startEvent, 1) ∈ started.stored := by decide +kernel
  have hempty : AllEvents textJson ∅ := ⟨fun p hp => rfl, fun p hp line hline => absurd hline List.not_mem_nil⟩
  exact ⟨hstored, ((stored_lines textJson_lawful hempty started_run).1 _ hstored).1⟩

/-- **An event that is cut short takes the next one with it**: that one is reported as stored and is no line of its
file, and the page from the start fails. -/
theorem joined_line : ReflTransGen (Step textJson []) {} joined ∧ (startEvent, 2) ∈ joined.stored ∧
    eventEnvelope textJson startEvent 2 ∉ linesAt joined.card (eventPath startEvent) ∧
    FailsOnTornBytes textJson joined.card (readEvents textJson joined.card {} {}) := by
  have hcut : Step textJson [] started cutShort := by
    refine honest_step ?_
    decide +kernel
  have hjoined : Step textJson [] cutShort joined := appended_step.step
  have hrun : ReflTransGen (Step textJson []) {} started :=
    ReflTransGen.mono (fun _ _ => UncutStep.step) _ _ started_run
  have hfacts : (startEvent, 2) ∈ joined.stored ∧
      eventEnvelope textJson startEvent 2 ∉ linesAt joined.card (eventPath startEvent) ∧
      (readEvents textJson joined.card {} {}).errorCode = HistoryError.recordCorrupt.code := by
    decide +kernel
  exact ⟨(hrun.tail hcut).tail hjoined, hfacts.1, hfacts.2.1, Or.inl hfacts.2.2⟩

end PowerMonitor.Storage.EventLines
