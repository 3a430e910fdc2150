import PowerMonitor.Storage.FaultyOperations
import PowerMonitor.Storage.Runs
import PowerMonitor.Storage.Unavailable

/-! # Runs in which anything may fail

The storage is asked to append, to reserve, to raise the floor, to recover or to mount, in any order, any
file operation may fail, writes may be cut, and the power may be lost between two file operations
(`FaultyStep`). In a run whose steps are `Safe` no sequence is given to two readings
(`sequences_distinct`): an append that is bound to a card gets to its end once its envelope is written,
and a recovery sees every sequence that stands. Without that, a bound append whose journal cannot be
written leaves its envelope and its sequence to the next one (`sequence_reused`). -/

namespace PowerMonitor.Storage.Sequences

open PowerMonitor.Lib.Binary PowerMonitor.Lib.Lines PowerMonitor.Lib.Json PowerMonitor.Lib.Program
open PowerMonitor.Storage.RecordFormat PowerMonitor.Storage.Reading PowerMonitor.Storage.Media
open PowerMonitor.Storage.Segment PowerMonitor.Storage.ReadPage PowerMonitor.Storage.SdStorage
open PowerMonitor.Storage.Frames PowerMonitor.Storage.Intact PowerMonitor.Storage.Recovery
open PowerMonitor.Storage.Layout PowerMonitor.Storage.CalmOperations PowerMonitor.Storage.Standing
open PowerMonitor.Storage.Faults PowerMonitor.Storage.FaultyRecovery PowerMonitor.Storage.FaultyOperations
open PowerMonitor.Storage.Runs PowerMonitor.Storage.Unavailable
open Relation (ReflTransGen)

/-! ### Runs -/

/-- The state after an operation under some events; when the power is lost, the variables are too. -/
def State.under (j : JsonLibrary) (fingerprint : Bytes) (s : State) (operation : Operation)
    (events : List Event) : State where
  card := (run device (operation.program j fingerprint s.ram) events s.card).1
  ram := ((run device (operation.program j fingerprint s.ram) events s.card).2.map
    fun result => result.1.1).getD {}

/-- **One operation**, whatever fails and wherever the power is lost. -/
inductive FaultyStep (j : JsonLibrary) (fingerprint : Bytes) (s : State) : State → Prop
  | run (operation : Operation) (events : List Event) :
      FaultyStep j fingerprint s (State.under j fingerprint s operation events)

/-- An unfinished line at the end of the file does not make a line that decodes with the new envelope. -/
def TornApart (j : JsonLibrary) (s : State) (r : IntervalRecord) : Prop :=
  ∀ e, decodeLine j .readings (unterminated (before s.card r) ++ recordEnvelope j (assigned s.ram r)) = .ok e →
    unterminated (before s.card r) = []

/-- **What must not happen to an operation**: a bound append that cannot use the manifest and the journals
once its envelope is written, and a recovery that misses a sequence. -/
def Safe (j : JsonLibrary) (fingerprint : Bytes) (s : State) (events : List Event) : Operation → Prop
  | .append r binding => TornApart j s r ∧ (binding.generation ≠ 0 →
      Along device (Finishes j s.card s.ram r) (append j fingerprint r binding s.ram) events s.card)
  | .recover => ∃ seen trusted, Covered j s.card (fun path => (s.card.lookup path).getD []) seen trusted ∧
      Along device (Attends seen trusted) (recover j s.ram) events s.card
  | .remountPreferred required => ∃ seen trusted, Covered j s.card (standing s.card) seen trusted ∧
      Along device (Attends seen trusted) (remountPreferred j fingerprint required.toNat s.ram) events s.card
  | _ => True

/-- One operation that is safe. -/
inductive SafeStep (j : JsonLibrary) (fingerprint : Bytes) (s : State) : State → Prop
  | run (operation : Operation) (events : List Event) (hsafe : Safe j fingerprint s events operation) :
      SafeStep j fingerprint s (State.under j fingerprint s operation events)

/-! ### What no safe step breaks -/

variable {j : JsonLibrary} {fingerprint : Bytes} {s s' : State} {card : Card} {ram : Ram} {r : IntervalRecord}

/-- **What no safe step breaks.** -/
structure Sound (j : JsonLibrary) (s : State) : Prop where
  tidy : Tidy s.card
  distinct : Distinct j s.card
  next : s.ram.nextSequence < 2 ^ 64
  fresh : s.ram.health.writable = true → ∀ n ∈ standingSequences j s.card, n < s.ram.nextSequence

/-- When the power is lost, the card is not in use. -/
theorem sound_off (htidy : Tidy card) (hdistinct : Distinct j card) : Sound j ⟨card, {}⟩ where
  tidy := htidy
  distinct := hdistinct
  next := show 1 < 2 ^ 64 by decide
  fresh h := by cases h

/-- A specification of the operation, for both ways it can end. -/
theorem sound_under {A : Op → Event → Card → Prop} {operation : Operation} {events : List Event}
    {C : Card → Prop} {Q : Ram × Bool → Card → Prop}
    (h : wp device A C (operation.program j fingerprint s.ram) Q s.card)
    (htidy : wp device A Tidy (operation.program j fingerprint s.ram) (fun _ => Tidy) s.card)
    (halong : Along device A (operation.program j fingerprint s.ram) events s.card)
    (hoff : ∀ card, Tidy card → C card → Sound j ⟨card, {}⟩)
    (hend : ∀ result card, Tidy card → Q result card → Sound j ⟨card, result.1⟩) :
    Sound j (State.under j fingerprint s operation events) := by
  have hout := wp_run (wp_and h htidy) halong
  unfold State.under
  generalize run device (operation.program j fingerprint s.ram) events s.card = out at hout
  obtain ⟨card', none | ⟨result, rest⟩⟩ := out
  · exact hoff card' hout.2 hout.1
  · exact hend result card' hout.2 hout.1

/-- What stands once a part of the envelope, or all of it, is written. -/
theorem distinct_withPart (hj : j.Lawful) (hs : Sound j s) (hw : s.ram.health.writable = true)
    (htorn : TornApart j s r) {part : Bytes} (hpart : part <+: recordEnvelope j (assigned s.ram r)) :
    Distinct j (s.card.insert (recordPath r) (before s.card r ++ part)) ∧
      ∀ n ∈ standingSequences j (s.card.insert (recordPath r) (before s.card r ++ part)),
        n ≤ s.ram.nextSequence := by
  have hpath : isRecordFile (recordPath r) = true := by
    rw [recordPath_eq]
    exact isRecordFile_recordStem _
  have hbefore : before s.card r <+: standing s.card (recordPath r) := by
    unfold before standing
    cases s.card.lookup (recordPath r) with
    | none => exact List.nil_prefix
    | some content => exact List.prefix_rfl
  -- the new lines: none, or the one with the next sequence
  have hnew : ∃ new : List ℕ, lineSequences j (before s.card r ++ part) =
      lineSequences j (before s.card r) ++ new ∧ new.Nodup ∧ ∀ n ∈ new, n = s.ram.nextSequence := by
    obtain ⟨init, henvelope, hinit⟩ := recordEnvelope_line hj (assigned s.ram r)
    rw [henvelope, List.prefix_concat_iff, ← henvelope] at hpart
    rcases hpart with rfl | hpart
    · refine ⟨_, lineSequences_append ⟨init, henvelope, hinit⟩ _, ?_, ?_⟩
      · unfold lineSequence
        cases Option.map Entry.sequence (decodeLine j .readings
          (unterminated (before s.card r) ++ recordEnvelope j (assigned s.ram r))).toOption <;> simp
      · intro n hn
        unfold lineSequence at hn
        cases hdecode : decodeLine j .readings
            (unterminated (before s.card r) ++ recordEnvelope j (assigned s.ram r)) with
        | error e => simp [hdecode, Except.toOption] at hn
        | ok e =>
          rw [hdecode] at hn
          rw [htorn e hdecode, List.nil_append, decodeLine_recordEnvelope hj] at hdecode
          cases hdecode
          rw [show n = (assigned s.ram r).sequence.toNat by simpa [Except.toOption, entryOf] using hn]
          exact assigned_sequence hs.next r
    · refine ⟨[], ?_, List.nodup_nil, by simp⟩
      rw [List.append_nil]
      exact lineSequences_append_part (fun hmem => hinit (hpart.subset hmem)) _
  obtain ⟨new, hcontent, hnodup, hvalue⟩ := hnew
  refine ⟨hs.distinct.insert hpath hbefore hcontent hnodup fun n hn hold => ?_, fun n hn => ?_⟩
  · have := hs.fresh hw n hold
    have := hvalue n hn
    omega
  · rcases standingSequences_insert hpath hbefore hcontent hn with hn | hn
    · exact Nat.le_of_lt (hs.fresh hw n hn)
    · exact Nat.le_of_eq (hvalue n hn)

theorem standing_afterwards {card' : Card} (h : SameExcept (afterwards r) card card') :
    ∀ path, isRecordFile path = true → standing card' path = standing card path := by
  refine standing_sameExcept h fun path hpath => ?_
  simp only [afterwards, List.mem_cons, not_or]
  refine ⟨⟨?_, record_notMem_journalPaths hpath⟩, ?_, repair_notMem_journalPaths path⟩
  · rintro rfl
    rw [indexPath_eq, isRecordFile_indexStem] at hpath
    cases hpath
  · rw [indexPath_eq]
    exact ne_of_suffix (repair_suffix path) (indexStem_suffix _) (by decide) (by decide)
      (by decide)

/-- Only other files changed. -/
theorem Sound.same_standing (htidy : Tidy card) (hdistinct : Distinct j s.card)
    (hsame : ∀ path, isRecordFile path = true → standing card path = standing s.card path)
    (hnext : ram.nextSequence < 2 ^ 64)
    (hfresh : ram.health.writable = true → ∀ n ∈ standingSequences j s.card, n < ram.nextSequence) :
    Sound j ⟨card, ram⟩ where
  tidy := htidy
  distinct := hdistinct.shrinks (.of_eq hsame)
  next := hnext
  fresh hw n hn := hfresh hw n ((Shrinks.of_eq hsame).subset hn)

/-- Only journals changed, and the counter moved forward. -/
theorem Sound.advances (hs : Sound j s) (htidy : Tidy card) (hsame : SameExcept journalPaths s.card card)
    (h : Advances s.ram ram) : Sound j ⟨card, ram⟩ :=
  .same_standing htidy hs.distinct (standing_journals hsame) (h.range hs.next) fun hw n hn =>
    Nat.lt_of_lt_of_le (hs.fresh (h.writable hw) n hn) h.next

/-- **An append.** -/
theorem Sound.append (hj : j.Lawful) (hs : Sound j s) {binding : CardBinding} {events : List Event}
    (hsafe : Safe j fingerprint s events (.append r binding)) :
    Sound j (State.under j fingerprint s (.append r binding) events) := by
  obtain ⟨htorn, hfinishes⟩ := hsafe
  have hfull : Accepts s.ram → Distinct j (withEnvelope j s.card s.ram r) ∧
      ∀ n ∈ standingSequences j (withEnvelope j s.card s.ram r), n ≤ s.ram.nextSequence := fun haccepts =>
    distinct_withPart hj hs haccepts.2.1 htorn List.prefix_rfl
  have hoff : ∀ card, Tidy card → Interrupted j s.card s.ram r card → Sound j ⟨card, {}⟩ := by
    rintro card htidy (_ | ⟨haccepts, hsame⟩)
    · exact sound_off htidy hs.distinct
    · exact sound_off htidy ((hfull haccepts).1.shrinks (.of_eq (standing_afterwards hsame)))
  have hend : ∀ (result : Ram × Bool) card, Tidy card → Appended j s.card s.ram r result.1 card →
      Sound j ⟨card, result.1⟩ := by
    rintro ⟨ram, ok⟩ card htidy happended
    simp only at happended
    cases happended with
    | refused => exact hs
    | part haccepts hpart =>
      exact ⟨htidy, (distinct_withPart hj hs haccepts.2.1 htorn hpart).1, hs.next, fun h => by cases h⟩
    | stored haccepts hsame =>
      obtain ⟨hdistinct, hbound⟩ := hfull haccepts
      have hlast := haccepts.2.2
      have hnext := hs.next
      refine Sound.same_standing (s := ⟨_, s.ram⟩) htidy hdistinct (standing_afterwards hsame) ?_ fun _ n hn => ?_
      · simp only [Ram.appended]
        omega
      · have := hbound n hn
        simp only [Ram.appended]
        omega
  by_cases hgeneration : binding.generation = 0
  · exact sound_under (A := fun _ _ _ => True)
      (faulty_append hs.next fun h => absurd hgeneration h) (wp_tidy (known_append r) hs.tidy)
      (along_of_forall _ _ fun _ _ _ _ => trivial) hoff hend
  · exact sound_under (faulty_append hs.next fun _ _ _ _ h => h) (wp_tidy (known_append r) hs.tidy)
      (hfinishes hgeneration) hoff hend

/-- **No safe step breaks it.** -/
theorem Sound.step (hj : j.Lawful) (hs : Sound j s) (hstep : SafeStep j fingerprint s s') : Sound j s' := by
  obtain ⟨operation, events, hsafe⟩ := hstep
  have hany : ∀ {α : Type} (p : CardProg α), Along device (fun _ _ _ => True) p events s.card := fun p =>
    along_of_forall p _ fun _ _ _ _ => trivial
  cases operation with
  | append r binding => exact hs.append hj hsafe
  | reserveUnavailableIntervals count binding =>
    refine sound_under faulty_reserve (wp_tidy known_reserve hs.tidy) (hany _) ?_ ?_
    · exact fun card htidy hsame => sound_off htidy (hs.distinct.shrinks (.of_eq (standing_journals hsame)))
    · exact fun result card htidy h => hs.advances htidy h.1 h.2
  | advanceSequenceFloor acknowledged binding =>
    refine sound_under (faulty_advance acknowledged.toNat_lt) (wp_tidy known_advance hs.tidy) (hany _) ?_ ?_
    · exact fun card htidy hsame => sound_off htidy (hs.distinct.shrinks (.of_eq (standing_journals hsame)))
    · exact fun result card htidy h => hs.advances htidy h.1 h.2
  | recover =>
    obtain ⟨seen, trusted, hcovered, halong⟩ := hsafe
    refine sound_under (faulty_recover hs.tidy hcovered) (tidy_recover hs.tidy) halong ?_ ?_
    · exact fun card htidy hshrinks => sound_off htidy (hs.distinct.shrinks hshrinks)
    · rintro ⟨ram, ok⟩ card htidy hrecovered
      refine ⟨htidy, hs.distinct.shrinks hrecovered.shrinks, hrecovered.range hs.next, fun hw n hn => ?_⟩
      cases ok with
      | true => exact hrecovered.above rfl n hn
      | false =>
        rw [hrecovered.refused rfl]
        exact hs.fresh (hrecovered.writable ▸ hw) n (hrecovered.shrinks.subset hn)
  | remountPreferred required =>
    obtain ⟨seen, trusted, hcovered, halong⟩ := hsafe
    refine sound_under (faulty_remountPreferred hs.tidy hcovered required.toNat_lt)
      (tidy_remountPreferred hs.tidy) halong ?_ ?_
    · exact fun card htidy hshrinks => sound_off htidy (hs.distinct.shrinks hshrinks)
    · exact fun result card htidy h => ⟨htidy, hs.distinct.shrinks h.shrinks, h.range hs.next, h.above⟩
  | restart => exact sound_off hs.tidy hs.distinct

/-- **In every run whose steps are safe, no two envelopes have the same sequence**, whatever else fails and
wherever the power is lost. -/
theorem sequences_distinct (hj : j.Lawful) (htidy : Tidy card) (hdistinct : Distinct j card)
    (hrun : ReflTransGen (SafeStep j fingerprint) { card := card } s) :
    (envelopeSequences j s.card).Nodup := by
  have hsound : Sound j s := by
    induction hrun with
    | refl => exact sound_off htidy hdistinct
    | tail _ hstep ih => exact ih.step hj hstep
  exact nodup_of_distinct hsound.distinct

/-- An append that is not bound to a card needs no journal. -/
theorem safe_unbound {binding : CardBinding} {events : List Event} (h : binding.generation = 0)
    (htorn : TornApart j s r) : Safe j fingerprint s events (.append r binding) :=
  ⟨htorn, fun hne => absurd h hne⟩

/-- A blank card is mounted. -/
def mounted : State := State.under textJson [] {} (.remountPreferred 0) (List.replicate 100 .done)

/-- A reading is stored, but the journal cannot be written. -/
def unjournaled : State := State.under textJson [] mounted (.append (minuteReading 0 1700002800000) {})
  (List.replicate 5 .done ++ List.replicate 100 .failed)

/-- The power is lost once the second envelope is written. -/
def interrupted : State := State.under textJson [] unjournaled (.append (minuteReading 0 1700002860000) {})
  (List.replicate 3 .done)

theorem interrupted_distinct :
    envelopeSequences textJson interrupted.card = [1, 2] ∧
      (envelopeSequences textJson interrupted.card).Nodup := by
  have hfacts : unterminated (before unjournaled.card (minuteReading 0 1700002860000)) = [] ∧
      envelopeSequences textJson interrupted.card = [1, 2] := by decide +kernel
  have hmount : SafeStep textJson [] {} mounted := by
    refine .run (.remountPreferred 0) _ ⟨∅, False, fun path _ n hn => ?_, ?_⟩
    · simp [standing, lineSequences, lines_nil] at hn
    · refine along_of_forall _ _ fun e he o s => ?_
      rw [List.eq_of_mem_replicate he]
      cases o <;> simp [Attends]
  have hfirst : SafeStep textJson [] mounted unjournaled :=
    .run (.append (minuteReading 0 1700002800000) {}) _ (safe_unbound rfl fun _ _ => by decide)
  have hsecond : SafeStep textJson [] unjournaled interrupted :=
    .run (.append (minuteReading 0 1700002860000) {}) _ (safe_unbound rfl fun _ _ => hfacts.1)
  have htidy : Tidy ∅ := fun path hpath => absurd (AList.lookup_empty path) hpath
  have hdistinct : Distinct textJson ∅ := by
    refine ⟨fun path _ => ?_, fun path path' n _ _ hn => ?_⟩
    · simp [standing, lineSequences, lines_nil]
    · simp [standing, lineSequences, lines_nil] at hn
  exact ⟨hfacts.2, sequences_distinct textJson_lawful htidy hdistinct
    (((ReflTransGen.single hmount).tail hfirst).tail hsecond)⟩

/-- A card of the device. -/
def ownCard : Card := AList.insert manifestPath (textJson.serialize
  [(ascii "schema_version", unsigned 2), (ascii "card_generation", unsigned 1),
    (ascii "device_id", text (ascii "meter")), (ascii "hardware_id_fingerprint", text (ascii "chip"))]) ∅

def ownMounted : State :=
  State.under textJson (ascii "chip") { card := ownCard } (.remountPreferred 0) (List.replicate 100 .done)

/-- A bound append whose envelope is written, and whose journal is not. -/
def ownFailed : State := State.under textJson (ascii "chip") ownMounted
  (.append (minuteReading 0 1700002800000) ⟨1, ascii "meter"⟩)
  (List.replicate 12 .done ++ List.replicate 100 .failed)

/-- The append is tried again. -/
def ownRetried : State := State.under textJson (ascii "chip") ownFailed
  (.append (minuteReading 0 1700002800000) ⟨1, ascii "meter"⟩) (List.replicate 100 .done)

/-- **A bound append that fails after its envelope is written lets the next one reuse its sequence.** -/
theorem sequence_reused :
    ReflTransGen (FaultyStep textJson (ascii "chip")) { card := ownCard } ownRetried ∧
      envelopeSequences textJson ownRetried.card = [1, 1] := by
  have hmount : FaultyStep textJson (ascii "chip") { card := ownCard } ownMounted := .run (.remountPreferred 0) _
  have hfailed : FaultyStep textJson (ascii "chip") ownMounted ownFailed :=
    .run (.append (minuteReading 0 1700002800000) ⟨1, ascii "meter"⟩) _
  have hretried : FaultyStep textJson (ascii "chip") ownFailed ownRetried :=
    .run (.append (minuteReading 0 1700002800000) ⟨1, ascii "meter"⟩) _
  exact ⟨((ReflTransGen.single hmount).tail hfailed).tail hretried, by decide +kernel⟩

end PowerMonitor.Storage.Sequences
