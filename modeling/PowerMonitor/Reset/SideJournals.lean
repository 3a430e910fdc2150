import PowerMonitor.Reset.CleanupJournal
import PowerMonitor.Reset.EventJournal
import PowerMonitor.Reset.Generations

/-! # The journals beside the reset record

A reset keeps three journals beside its record: the intervals it cut short, the events it preserves, and what it
removes. Each has a rule of its own for what may replace what. Here the record and the journals are followed
over many operations (`History`); when an operation ends, its journals are completed. A journal that is left
then keeps the first one of the next operation out exactly if both operations have one identifier
(`journals_admit_iff`). -/

namespace PowerMonitor.Reset.SideJournals

open PowerMonitor.Lib.Binary PowerMonitor.Lib.Json PowerMonitor.Storage.Reading
open PowerMonitor.Reset.Policy PowerMonitor.Reset.Operation PowerMonitor.Reset.RecordStore
open PowerMonitor.Reset.Generations PowerMonitor.Reset.DrainJournal PowerMonitor.Reset.EventJournal
open PowerMonitor.Reset.CleanupJournal

/-! ### What a store admits -/

/-- A valid record that the drain store takes over what it holds. -/
def drainAdmits (j : JsonLibrary) : Option DrainRecord → DrainRecord → Bool
  | none, proposed => proposed.state = .staged
  | some current, proposed => validDrainRecordUpdate j current proposed

def eventsAdmit : Option EventJournalRecord → EventJournalRecord → Bool
  | none, proposed => proposed.state = .staged
  | some current, proposed => validEventJournalRecordUpdate current proposed

def cleanupAdmits : Option CleanupRecord → CleanupRecord → Bool
  | none, proposed => proposed.state = .planned
  | some current, proposed => validCleanupRecordUpdate current proposed

/-- The first record of an operation that the reset store takes: the first of all, or one of another operation
than the last. -/
def Begins (rs : List Record) (r : Record) : Prop :=
  (rs = [] ∧ validRecord r = true ∧ r.state = .preparing ∧ r.checkpoint = .none) ∨
    ∃ last, rs.getLast? = some last ∧ r.prepare.operationId ≠ last.prepare.operationId ∧ validRecordUpdate last r = true

/-! ### Histories -/

structure Journals where
  drain : Option DrainRecord := none
  events : Option EventJournalRecord := none
  cleanup : Option CleanupRecord := none

/-- The journal with this head is one of the operation. -/
structure Of (r : Record) (operationId deviceId : Bytes) (targetGeneration : UInt64) : Prop where
  operationId : operationId = r.prepare.operationId
  deviceId : deviceId = r.prepare.deviceId
  targetGeneration : targetGeneration = generation r

abbrev DrainOf (j : JsonLibrary) (r : Record) (d : DrainRecord) : Prop :=
  validDrainRecord j d = true ∧ Of r d.operationId d.deviceId d.targetGeneration

abbrev EventsOf (r : Record) (e : EventJournalRecord) : Prop :=
  validEventJournalRecord e = true ∧ Of r e.operationId e.deviceId e.targetGeneration

abbrev CleanupOf (r : Record) (c : CleanupRecord) : Prop :=
  validCleanupRecord c = true ∧ Of r c.operationId c.deviceId c.targetGeneration

/-- The journals of the operation are at their last state. -/
structure Ended (r : Record) (s : Journals) : Prop where
  drain : ∀ d, s.drain = some d → d.operationId = r.prepare.operationId → d.state = .completed
  events : ∀ e, s.events = some e → e.operationId = r.prepare.operationId → e.state = .completed
  cleanup : ∀ c, s.cleanup = some c → c.operationId = r.prepare.operationId → c.state = .completed

/-- **The histories** of the reset store, with what the journals hold. An interval is staged before the record of
its operation is stored; events and what is removed are noted after the operation is authorized. -/
inductive History (j : JsonLibrary) : List Record → Journals → Prop
  | start : History j [] {}
  | begin {rs : List Record} {s : Journals} (h : History j rs s) (r : Record) (hbegins : Begins rs r)
      (staged : Option DrainRecord) (hstaged : ∀ d, staged = some d →
        DrainOf j r d ∧ d.state = .staged ∧ drainAdmits j s.drain d = true) :
      History j (rs ++ [r]) { s with drain := staged.or s.drain }
  | proceed {rs : List Record} {s : Journals} (h : History j rs s) {last : Record} (hlast : rs.getLast? = some last)
      (r : Record) (hid : r.prepare.operationId = last.prepare.operationId) (hfollows : Follows last r)
      (hended : terminalState r.state = true → Ended r s) : History j (rs ++ [r]) s
  | drain {rs : List Record} {s : Journals} (h : History j rs s) {last : Record} (hlast : rs.getLast? = some last)
      (hactive : terminalState last.state = false) (d : DrainRecord) (hd : DrainOf j last d)
      (hadmits : drainAdmits j s.drain d = true) : History j rs { s with drain := some d }
  | events {rs : List Record} {s : Journals} (h : History j rs s) {last : Record} (hlast : rs.getLast? = some last)
      (hactive : terminalState last.state = false) (hauthorized : commitPointReached last.checkpoint = true)
      (e : EventJournalRecord) (he : EventsOf last e) (hadmits : eventsAdmit s.events e = true) :
      History j rs { s with events := some e }
  | cleanup {rs : List Record} {s : Journals} (h : History j rs s) {last : Record} (hlast : rs.getLast? = some last)
      (hactive : terminalState last.state = false) (hauthorized : commitPointReached last.checkpoint = true)
      (c : CleanupRecord) (hc : CleanupOf last c) (hadmits : cleanupAdmits s.cleanup c = true) :
      History j rs { s with cleanup := some c }

/-! ### What a rule says of another operation -/

theorem drainAdmits_iff {j : JsonLibrary} {current proposed : DrainRecord} (hcurrent : validDrainRecord j current = true)
    (hproposed : validDrainRecord j proposed = true) (hcompleted : current.state = .completed)
    (hstaged : proposed.state = .staged) (hgeneration : current.targetGeneration ≤ proposed.targetGeneration) :
    validDrainRecordUpdate j current proposed = true ↔ current.operationId ≠ proposed.operationId := by
  unfold validDrainRecordUpdate
  rw [if_neg (by simp [hcurrent, hproposed])]
  by_cases hid : current.operationId = proposed.operationId
  · -- nothing of the same operation comes after a completed journal
    have hvalue : proposed.state.value ≠ current.state.value + 1 := by
      rw [hcompleted, hstaged]
      decide
    rw [if_neg (by simpa using hid)]
    simp [hvalue, hid]
  · rw [if_pos hid]
    simp [hcompleted, hstaged, hgeneration, hid]

theorem eventsAdmit_iff {current proposed : EventJournalRecord} (hcurrent : validEventJournalRecord current = true)
    (hproposed : validEventJournalRecord proposed = true) (hcompleted : current.state = .completed)
    (hstaged : proposed.state = .staged) (hgeneration : current.targetGeneration < proposed.targetGeneration) :
    validEventJournalRecordUpdate current proposed = true ↔ current.operationId ≠ proposed.operationId := by
  unfold validEventJournalRecordUpdate
  rw [if_neg (by simp [hcurrent, hproposed])]
  by_cases hid : current.operationId = proposed.operationId
  · rw [if_neg (by simpa using hid), if_neg (by simp [hcompleted]), if_pos (by simp [hcompleted])]
    simp [hid]
  · rw [if_pos hid]
    simp [hcompleted, hstaged, hgeneration, hid]

theorem cleanupAdmits_iff {current proposed : CleanupRecord} (hcurrent : validCleanupRecord current = true)
    (hproposed : validCleanupRecord proposed = true) (hcompleted : current.state = .completed)
    (hplanned : proposed.state = .planned) (hgeneration : current.targetGeneration < proposed.targetGeneration) :
    validCleanupRecordUpdate current proposed = true ↔ current.operationId ≠ proposed.operationId := by
  unfold validCleanupRecordUpdate
  rw [if_neg (by simp [hcurrent, hproposed])]
  by_cases hid : current.operationId = proposed.operationId
  · rw [if_neg (by simpa using hid)]
    simp [hcompleted, hid]
  · rw [if_pos hid]
    simp [hcompleted, hplanned, hgeneration, hid]

/-! ### What is left beside the last record -/

variable {j : JsonLibrary} {rs : List Record} {s : Journals} {last r : Record} {operationId : Bytes} {done : Prop}
  {g : UInt64}

/-- A journal of one of the operations; it is completed, unless its operation goes on. -/
structure Behind (rs : List Record) (last : Record) (operationId : Bytes) (done : Prop) : Prop where
  named : ∃ q ∈ rs, q.prepare.operationId = operationId
  settled : done ∨ (operationId = last.prepare.operationId ∧ terminalState last.state = false)

/-- The generation is below the record's, or it is the record's and the operation was authorized. -/
def Below (last : Record) (g : UInt64) : Prop :=
  g < generation last ∨ (g = generation last ∧ commitPointReached last.checkpoint = true)

theorem terminal_of_update (hid : r.prepare.operationId ≠ last.prepare.operationId)
    (hupdate : validRecordUpdate last r = true) : terminalState last.state = true := by
  have hsuccessor := validSuccessor_of_update hupdate hid
  simp only [validSuccessor, Bool.and_eq_true] at hsuccessor
  exact hsuccessor.1.1.1

theorem Behind.completed (h : Behind rs last operationId done) (hterminal : terminalState last.state = true) :
    done := by
  rcases h.settled with hcompleted | ⟨-, hactive⟩
  · exact hcompleted
  · rw [hterminal] at hactive
    cases hactive

theorem Behind.begin (h : Behind rs last operationId done) (hterminal : terminalState last.state = true) :
    Behind (rs ++ [r]) r operationId done where
  named := by
    obtain ⟨q, hq, hid⟩ := h.named
    exact ⟨q, List.mem_append_left _ hq, hid⟩
  settled := Or.inl (h.completed hterminal)

theorem Behind.proceed (h : Behind rs last operationId done) (hid : r.prepare.operationId = last.prepare.operationId)
    (hended : terminalState r.state = true → operationId = r.prepare.operationId → done) :
    Behind (rs ++ [r]) r operationId done where
  named := by
    obtain ⟨q, hq, hqid⟩ := h.named
    exact ⟨q, List.mem_append_left _ hq, hqid⟩
  settled := by
    rcases h.settled with hcompleted | ⟨hsame, -⟩
    · exact Or.inl hcompleted
    · have hsame' : operationId = r.prepare.operationId := hsame.trans hid.symm
      by_cases hterminal : terminalState r.state = true
      · exact Or.inl (hended hterminal hsame')
      · exact Or.inr ⟨hsame', by simpa using hterminal⟩

/-- A journal of the last record's operation. -/
theorem behind_own (hlast : rs.getLast? = some last) (hsame : operationId = last.prepare.operationId)
    (hactive : terminalState last.state = false) : Behind rs last operationId done where
  named := ⟨last, List.mem_of_getLast? hlast, hsame.symm⟩
  settled := Or.inr ⟨hsame, hactive⟩

theorem Below.proceed (h : Below last g) (hid : r.prepare.operationId = last.prepare.operationId)
    (hfollows : Follows last r) : Below r g := by
  rcases hfollows with rfl | hupdate
  · exact h
  · have hcontinues := validContinuation_continues (validContinuation_of_update hupdate hid)
    have hgeneration : generation r = generation last := by
      rw [generation, generation, hcontinues.prepare]
    rcases h with hlt | ⟨heq, hauthorized⟩
    · exact Or.inl (hgeneration ▸ hlt)
    · exact Or.inr ⟨heq.trans hgeneration.symm, commitPointReached_mono hcontinues.checkpoint hauthorized⟩

/-- Whatever was noted of an authorized operation is below the next operation: the operation was completed, or it
was cancelled before it was authorized. -/
theorem Below.begin (h : Below last g) (hvalid : validRecord last = true)
    (hid : r.prepare.operationId ≠ last.prepare.operationId) (hupdate : validRecordUpdate last r = true) :
    g < generation r := by
  have hsuccessor := validSuccessor_of_update hupdate hid
  have hle := generation_le_of_successor hsuccessor
  rcases h with hlt | ⟨heq, hauthorized⟩
  · exact UInt64.lt_of_lt_of_le hlt hle
  · have hterminal := terminal_of_update hid hupdate
    simp only [terminalState, Bool.or_eq_true, decide_eq_true_eq] at hterminal
    rcases hterminal with hcompleted | hcancelled
    · rw [heq]
      exact generation_lt_of_completed hsuccessor hcompleted
    · -- a cancelled record was never authorized
      have hcheckpoint : validStateCheckpoint last.state last.checkpoint = true := by
        simp only [validRecord, Bool.and_eq_true] at hvalid
        tauto
      rw [hcancelled] at hcheckpoint
      simp only [validStateCheckpoint, decide_eq_true_eq] at hcheckpoint
      rw [hcheckpoint] at hauthorized
      exact absurd hauthorized (by decide)

/-! ### The invariant -/

/-- **What every history keeps**: the journals are of its operations, completed unless the last one goes on, and for
generations that the reset store has reached. -/
structure Invariant (j : JsonLibrary) (rs : List Record) (s : Journals) : Prop where
  stored : StoredSequence rs
  drain : ∀ d, s.drain = some d → validDrainRecord j d = true ∧ ∃ last, rs.getLast? = some last ∧
    d.targetGeneration ≤ generation last ∧ Behind rs last d.operationId (d.state = .completed)
  events : ∀ e, s.events = some e → validEventJournalRecord e = true ∧ ∃ last, rs.getLast? = some last ∧
    Below last e.targetGeneration ∧ Behind rs last e.operationId (e.state = .completed)
  cleanup : ∀ c, s.cleanup = some c → validCleanupRecord c = true ∧ ∃ last, rs.getLast? = some last ∧
    Below last c.targetGeneration ∧ Behind rs last c.operationId (c.state = .completed)

theorem Begins.stored (h : Begins rs r) (hstored : StoredSequence rs) : StoredSequence (rs ++ [r]) := by
  rcases h with ⟨hnil, hvalid, hstate, hcheckpoint⟩ | ⟨last, hlast, -, hupdate⟩
  · exact hstored.append hvalid (Or.inl ⟨hnil, hstate, hcheckpoint⟩)
  · have hvalid : validRecord r = true := by
      simp only [validRecordUpdate, Bool.and_eq_true] at hupdate
      exact hupdate.1.2
    exact hstored.append hvalid (Or.inr ⟨last, hlast, Or.inr hupdate⟩)

/-- What the record that begins an operation comes after. -/
theorem Begins.after (h : Begins rs r) (hlast : rs.getLast? = some last) :
    r.prepare.operationId ≠ last.prepare.operationId ∧ validRecordUpdate last r = true := by
  rcases h with ⟨rfl, -⟩ | ⟨last', hlast', hid, hupdate⟩
  · cases hlast
  · rw [hlast, Option.some.injEq] at hlast'
    subst hlast'
    exact ⟨hid, hupdate⟩

theorem Begins.active (h : Begins rs r) : terminalState r.state = false := by
  have hpreparing : r.state = .preparing := by
    rcases h with ⟨-, -, hstate, -⟩ | ⟨last, -, hid, hupdate⟩
    · exact hstate
    · have hsuccessor := validSuccessor_of_update hupdate hid
      simp only [validSuccessor, Bool.and_eq_true, decide_eq_true_eq] at hsuccessor
      exact hsuccessor.1.1.2
  rw [hpreparing]
  rfl

theorem Invariant.begin (h : Invariant j rs s) (hbegins : Begins rs r) (staged : Option DrainRecord)
    (hstaged : ∀ d, staged = some d → DrainOf j r d) :
    Invariant j (rs ++ [r]) { s with drain := staged.or s.drain } where
  stored := hbegins.stored h.stored
  drain := by
    intro d hd
    cases staged with
    | some d' =>
      rw [Option.some_or, Option.some.injEq] at hd
      subst hd
      obtain ⟨hvalid, hof⟩ := hstaged _ rfl
      refine ⟨hvalid, r, List.getLast?_concat .., ?_, behind_own (List.getLast?_concat ..) hof.operationId hbegins.active⟩
      rw [hof.targetGeneration]
      exact UInt64.le_refl _
    | none =>
      rw [Option.none_or] at hd
      obtain ⟨hvalid, last, hlast, hle, hbehind⟩ := h.drain d hd
      obtain ⟨hid, hupdate⟩ := hbegins.after hlast
      exact ⟨hvalid, r, List.getLast?_concat ..,
        UInt64.le_trans hle (generation_le_of_successor (validSuccessor_of_update hupdate hid)),
        hbehind.begin (terminal_of_update hid hupdate)⟩
  events := by
    intro e he
    obtain ⟨hvalid, last, hlast, hbelow, hbehind⟩ := h.events e he
    obtain ⟨hid, hupdate⟩ := hbegins.after hlast
    exact ⟨hvalid, r, List.getLast?_concat .., Or.inl (hbelow.begin
      (h.stored.valid last (List.mem_of_getLast? hlast)) hid hupdate), hbehind.begin (terminal_of_update hid hupdate)⟩
  cleanup := by
    intro c hc
    obtain ⟨hvalid, last, hlast, hbelow, hbehind⟩ := h.cleanup c hc
    obtain ⟨hid, hupdate⟩ := hbegins.after hlast
    exact ⟨hvalid, r, List.getLast?_concat .., Or.inl (hbelow.begin
      (h.stored.valid last (List.mem_of_getLast? hlast)) hid hupdate), hbehind.begin (terminal_of_update hid hupdate)⟩

theorem Invariant.proceed (h : Invariant j rs s) (hlast : rs.getLast? = some last)
    (hid : r.prepare.operationId = last.prepare.operationId) (hfollows : Follows last r)
    (hended : terminalState r.state = true → Ended r s) : Invariant j (rs ++ [r]) s where
  stored := by
    have hvalid : validRecord r = true := by
      rcases hfollows with rfl | hupdate
      · exact h.stored.valid r (List.mem_of_getLast? hlast)
      · simp only [validRecordUpdate, Bool.and_eq_true] at hupdate
        exact hupdate.1.2
    exact h.stored.append hvalid (Or.inr ⟨last, hlast, hfollows⟩)
  drain := by
    intro d hd
    obtain ⟨hvalid, last', hlast', hle, hbehind⟩ := h.drain d hd
    rw [hlast, Option.some.injEq] at hlast'
    subst hlast'
    exact ⟨hvalid, r, List.getLast?_concat .., UInt64.le_trans hle (Follows.generation hfollows).1,
      hbehind.proceed hid fun hterminal => (hended hterminal).drain d hd⟩
  events := by
    intro e he
    obtain ⟨hvalid, last', hlast', hbelow, hbehind⟩ := h.events e he
    rw [hlast, Option.some.injEq] at hlast'
    subst hlast'
    exact ⟨hvalid, r, List.getLast?_concat .., hbelow.proceed hid hfollows,
      hbehind.proceed hid fun hterminal => (hended hterminal).events e he⟩
  cleanup := by
    intro c hc
    obtain ⟨hvalid, last', hlast', hbelow, hbehind⟩ := h.cleanup c hc
    rw [hlast, Option.some.injEq] at hlast'
    subst hlast'
    exact ⟨hvalid, r, List.getLast?_concat .., hbelow.proceed hid hfollows,
      hbehind.proceed hid fun hterminal => (hended hterminal).cleanup c hc⟩

theorem History.invariant (h : History j rs s) : Invariant j rs s := by
  induction h with
  | start =>
    constructor
    · exact .nil
    all_goals rintro _ ⟨⟩
  | begin _ r hbegins staged hstaged ih => exact ih.begin hbegins staged fun d hd => (hstaged d hd).1
  | proceed _ hlast r hid hfollows hended ih => exact ih.proceed hlast hid hfollows hended
  | @drain rs s _ last hlast hactive d hd _ ih =>
    refine { ih with drain := ?_ }
    rintro _ ⟨⟩
    obtain ⟨hvalid, hof⟩ := hd
    refine ⟨hvalid, last, hlast, ?_, behind_own hlast hof.operationId hactive⟩
    rw [hof.targetGeneration]
    exact UInt64.le_refl _
  | @events rs s _ last hlast hactive hauthorized e he _ ih =>
    refine { ih with events := ?_ }
    rintro _ ⟨⟩
    obtain ⟨hvalid, hof⟩ := he
    exact ⟨hvalid, last, hlast, Or.inr ⟨hof.targetGeneration, hauthorized⟩, behind_own hlast hof.operationId hactive⟩
  | @cleanup rs s _ last hlast hactive hauthorized c hc _ ih =>
    refine { ih with cleanup := ?_ }
    rintro _ ⟨⟩
    obtain ⟨hvalid, hof⟩ := hc
    exact ⟨hvalid, last, hlast, Or.inr ⟨hof.targetGeneration, hauthorized⟩, behind_own hlast hof.operationId hactive⟩

/-! ### The next operation -/

/-- The three stores admit the first journals of the operation. -/
structure Admitted (j : JsonLibrary) (s : Journals) (r : Record) : Prop where
  drain : ∀ d, DrainOf j r d → d.state = .staged → drainAdmits j s.drain d = true
  events : ∀ e, EventsOf r e → e.state = .staged → eventsAdmit s.events e = true
  cleanup : ∀ c, CleanupOf r c → c.state = .planned → cleanupAdmits s.cleanup c = true

theorem History.drainAdmits_iff (h : History j rs s) (hbegins : Begins rs r) {d : DrainRecord} (hd : DrainOf j r d)
    (hstaged : d.state = .staged) :
    drainAdmits j s.drain d = true ↔ ∀ left, s.drain = some left → left.operationId ≠ r.prepare.operationId := by
  cases hdrain : s.drain with
  | none => simp [drainAdmits, hstaged]
  | some left =>
    obtain ⟨hvalid, last, hlast, hle, hbehind⟩ := h.invariant.drain left hdrain
    obtain ⟨hid, hupdate⟩ := hbegins.after hlast
    have hcompleted := hbehind.completed (terminal_of_update hid hupdate)
    have hgeneration : left.targetGeneration ≤ d.targetGeneration := by
      rw [hd.2.targetGeneration]
      exact UInt64.le_trans hle (generation_le_of_successor (validSuccessor_of_update hupdate hid))
    rw [drainAdmits, SideJournals.drainAdmits_iff hvalid hd.1 hcompleted hstaged hgeneration, hd.2.operationId]
    simp

theorem History.eventsAdmit_iff (h : History j rs s) (hbegins : Begins rs r) {e : EventJournalRecord} (he : EventsOf r e)
    (hstaged : e.state = .staged) :
    eventsAdmit s.events e = true ↔ ∀ left, s.events = some left → left.operationId ≠ r.prepare.operationId := by
  cases hevents : s.events with
  | none => simp [eventsAdmit, hstaged]
  | some left =>
    obtain ⟨hvalid, last, hlast, hbelow, hbehind⟩ := h.invariant.events left hevents
    obtain ⟨hid, hupdate⟩ := hbegins.after hlast
    have hcompleted := hbehind.completed (terminal_of_update hid hupdate)
    have hgeneration : left.targetGeneration < e.targetGeneration := by
      rw [he.2.targetGeneration]
      exact hbelow.begin (h.invariant.stored.valid last (List.mem_of_getLast? hlast)) hid hupdate
    rw [eventsAdmit, SideJournals.eventsAdmit_iff hvalid he.1 hcompleted hstaged hgeneration, he.2.operationId]
    simp

theorem History.cleanupAdmits_iff (h : History j rs s) (hbegins : Begins rs r) {c : CleanupRecord} (hc : CleanupOf r c)
    (hplanned : c.state = .planned) :
    cleanupAdmits s.cleanup c = true ↔ ∀ left, s.cleanup = some left → left.operationId ≠ r.prepare.operationId := by
  cases hcleanup : s.cleanup with
  | none => simp [cleanupAdmits, hplanned]
  | some left =>
    obtain ⟨hvalid, last, hlast, hbelow, hbehind⟩ := h.invariant.cleanup left hcleanup
    obtain ⟨hid, hupdate⟩ := hbegins.after hlast
    have hcompleted := hbehind.completed (terminal_of_update hid hupdate)
    have hgeneration : left.targetGeneration < c.targetGeneration := by
      rw [hc.2.targetGeneration]
      exact hbelow.begin (h.invariant.stored.valid last (List.mem_of_getLast? hlast)) hid hupdate
    rw [cleanupAdmits, SideJournals.cleanupAdmits_iff hvalid hc.1 hcompleted hplanned hgeneration, hc.2.operationId]
    simp

/-- What is left is a journal of an operation of the history. -/
theorem History.named (h : History j rs s) {identifier : Bytes} (hnew : ∀ q ∈ rs, q.prepare.operationId ≠ identifier) :
    (∀ left, s.drain = some left → left.operationId ≠ identifier) ∧
    (∀ left, s.events = some left → left.operationId ≠ identifier) ∧
    ∀ left, s.cleanup = some left → left.operationId ≠ identifier := by
  have hbehind : ∀ {last : Record} {operationId : Bytes} {done : Prop}, Behind rs last operationId done →
      operationId ≠ identifier := by
    rintro last operationId done h rfl
    obtain ⟨q, hq, hid⟩ := h.named
    exact hnew q hq hid
  refine ⟨fun left hleft => ?_, fun left hleft => ?_, fun left hleft => ?_⟩
  · obtain ⟨-, last, -, -, h'⟩ := h.invariant.drain left hleft
    exact hbehind h'
  · obtain ⟨-, last, -, -, h'⟩ := h.invariant.events left hleft
    exact hbehind h'
  · obtain ⟨-, last, -, -, h'⟩ := h.invariant.cleanup left hleft
    exact hbehind h'

/-- **The journals and the next operation.** Whenever the reset store takes the first record of an operation, each
store of a journal admits the first journal of that operation if and only if the journal it holds has another
operation's identifier; so all three admit it if no earlier operation had the identifier. -/
theorem journals_admit_iff (h : History j rs s) (hbegins : Begins rs r) :
    (∀ d, DrainOf j r d → d.state = .staged →
      (drainAdmits j s.drain d = true ↔ ∀ left, s.drain = some left → left.operationId ≠ r.prepare.operationId)) ∧
    (∀ e, EventsOf r e → e.state = .staged →
      (eventsAdmit s.events e = true ↔ ∀ left, s.events = some left → left.operationId ≠ r.prepare.operationId)) ∧
    (∀ c, CleanupOf r c → c.state = .planned →
      (cleanupAdmits s.cleanup c = true ↔ ∀ left, s.cleanup = some left → left.operationId ≠ r.prepare.operationId)) ∧
    ((∀ q ∈ rs, q.prepare.operationId ≠ r.prepare.operationId) → Admitted j s r) := by
  refine ⟨fun d hd hstaged => h.drainAdmits_iff hbegins hd hstaged, fun e he hstaged => h.eventsAdmit_iff hbegins he hstaged,
    fun c hc hplanned => h.cleanupAdmits_iff hbegins hc hplanned, fun hnew => ?_⟩
  obtain ⟨hdrain, hevents, hcleanup⟩ := h.named hnew
  constructor
  · exact fun d hd hstaged => (h.drainAdmits_iff hbegins hd hstaged).mpr hdrain
  · exact fun e he hstaged => (h.eventsAdmit_iff hbegins he hstaged).mpr hevents
  · exact fun c hc hplanned => (h.cleanupAdmits_iff hbegins hc hplanned).mpr hcleanup

/-- Another reset for the same generation. -/
def askedAgain : Record :=
  { asked with prepare := { asked.prepare with operationId := ascii "00000000-0000-0000-0000-000000000003" } }

def withdrawnAgain : Record := { withdrawn with prepare := askedAgain.prepare }

theorem begins_asked : Begins [] asked := Or.inl ⟨rfl, by decide⟩

def cutShort : IntervalRecord where
  deviceId := asked.prepare.deviceId
  friendlyName := ascii "meter"
  bootId := ascii "00000000-0000-0000-0000-000000000004"
  sampleCount := 1
  validSampleCount := 1
  firmwareVersion := ascii "1.0.0"

/-- The interval that the first reset cut short. -/
def drainStaged : DrainRecord where
  operationId := asked.prepare.operationId
  deviceId := asked.prepare.deviceId
  targetGeneration := 1
  cardGeneration := 1
  intervalCount := 1
  intervalCrc32 := #v[intervalCrc32 textJson cutShort, 0]
  intervals := #v[cutShort, {}]

def drainAssigned : DrainRecord := { drainStaged with state := .assigned, assignedFirstSequence := 1 }

def drainCompleted : DrainRecord :=
  { drainAssigned with state := .completed, intervals := Vector.replicate 2 {} }

/-- The interval that another reset cut short. -/
def drainStagedAgain : DrainRecord := { drainStaged with operationId := askedAgain.prepare.operationId }

-- the sum of the interval is computed here only
theorem crc_cutShort : intervalCrc32 textJson cutShort ≠ 0 := by decide +kernel

theorem valid_cutShort {record : DrainRecord} (hgeneration : record.sourceGeneration = 0)
    (hdevice : record.deviceId = asked.prepare.deviceId) :
    validStagedInterval textJson record cutShort (intervalCrc32 textJson cutShort) = true := by
  unfold validStagedInterval
  rw [hgeneration, hdevice]
  have hcrc := crc_cutShort
  generalize intervalCrc32 textJson cutShort = c at hcrc
  simp only [hcrc, ne_eq, not_false_eq_true, decide_true, Bool.and_true]
  decide

theorem validInterval_cutShort {record : DrainRecord} (hstate : record.state ≠ .completed)
    (hcount : record.intervalCount = 1) (hinterval : record.intervals.get 0 = cutShort)
    (hcrc : record.intervalCrc32.get 0 = intervalCrc32 textJson cutShort) (hgeneration : record.sourceGeneration = 0)
    (hdevice : record.deviceId = asked.prepare.deviceId) : validInterval textJson record 0 = true := by
  unfold validInterval
  simp only [hinterval, hcrc, hcount, hstate, ne_eq, not_false_eq_true, decide_true, Bool.and_true]
  exact valid_cutShort hgeneration hdevice

theorem valid_staged : validDrainRecord textJson drainStaged = true := by
  have hfirst : validInterval textJson drainStaged 0 = true := validInterval_cutShort (by decide) rfl rfl rfl rfl rfl
  have hsecond : validInterval textJson drainStaged 1 = true := by decide
  unfold validDrainRecord
  rw [hfirst, hsecond]
  decide

theorem valid_stagedAgain : validDrainRecord textJson drainStagedAgain = true := by
  have hfirst : validInterval textJson drainStagedAgain 0 = true :=
    validInterval_cutShort (by decide) rfl rfl rfl rfl rfl
  have hsecond : validInterval textJson drainStagedAgain 1 = true := by decide
  unfold validDrainRecord
  rw [hfirst, hsecond]
  decide

theorem valid_assigned : validDrainRecord textJson drainAssigned = true := by
  have hfirst : validInterval textJson drainAssigned 0 = true := validInterval_cutShort (by decide) rfl rfl rfl rfl rfl
  have hsecond : validInterval textJson drainAssigned 1 = true := by decide
  unfold validDrainRecord
  rw [hfirst, hsecond]
  decide

theorem valid_completed : validDrainRecord textJson drainCompleted = true := by
  have hfirst : validInterval textJson drainCompleted 0 = true := by
    have hcrc : drainCompleted.intervalCrc32.get 0 = intervalCrc32 textJson cutShort := rfl
    have hempty : intervalEqual (drainCompleted.intervals.get 0) {} = true := by decide
    have hcount : drainCompleted.intervalCount = 1 := rfl
    have hstate : drainCompleted.state = .completed := rfl
    unfold validInterval
    simp only [hcrc, hempty, hcount, hstate]
    simp [crc_cutShort]
  have hsecond : validInterval textJson drainCompleted 1 = true := by decide
  unfold validDrainRecord
  rw [hfirst, hsecond]
  decide

theorem admits_assigned : drainAdmits textJson (some drainStaged) drainAssigned = true := by
  have hevidence : immutableDrainEvidenceEqual drainStaged drainAssigned = true := by
    simp [immutableDrainEvidenceEqual, drainAssigned]
  show validDrainRecordUpdate textJson drainStaged drainAssigned = true
  unfold validDrainRecordUpdate
  rw [valid_staged, valid_assigned, hevidence]
  decide

theorem admits_completed : drainAdmits textJson (some drainAssigned) drainCompleted = true := by
  have hevidence : immutableDrainEvidenceEqual drainAssigned drainCompleted = true := by
    simp [immutableDrainEvidenceEqual, drainCompleted]
  show validDrainRecordUpdate textJson drainAssigned drainCompleted = true
  unfold validDrainRecordUpdate
  rw [valid_assigned, valid_completed, hevidence]
  decide

/-- The interval is on the card, and the reset is cancelled. -/
theorem cancelled_once : History textJson [asked, withdrawn] { drain := some drainCompleted } := by
  have hstaged : History textJson [asked] { drain := some drainStaged } :=
    .begin .start asked begins_asked (some drainStaged)
      (by rintro _ ⟨⟩; exact ⟨⟨valid_staged, rfl, rfl, rfl⟩, rfl, rfl⟩)
  have hassigned : History textJson [asked] { drain := some drainAssigned } :=
    .drain hstaged rfl rfl drainAssigned ⟨valid_assigned, rfl, rfl, rfl⟩ admits_assigned
  have hcompleted : History textJson [asked] { drain := some drainCompleted } :=
    .drain hassigned rfl rfl drainCompleted ⟨valid_completed, rfl, rfl, rfl⟩ admits_completed
  exact .proceed hcompleted rfl withdrawn rfl (Or.inr (by decide)) fun _ =>
    ⟨by rintro _ ⟨⟩ _; rfl, by rintro _ ⟨⟩, by rintro _ ⟨⟩⟩

theorem begins_askedAgain : Begins [asked, withdrawn] askedAgain :=
  Or.inr ⟨withdrawn, rfl, by decide, by decide⟩

/-- The other reset may stage an interval of its own. -/
theorem journal_admitted : drainAdmits textJson (some drainCompleted) drainStagedAgain = true :=
  ((journals_admit_iff cancelled_once begins_askedAgain).1 drainStagedAgain ⟨valid_stagedAgain, rfl, rfl, rfl⟩ rfl).mpr
    (by rintro _ ⟨⟩; decide)

/-- **The identifier of an earlier reset** keeps the journal out, though the reset store takes the record. -/
theorem journal_kept_out : ¬ ∀ rs s r, History textJson rs s → Begins rs r → Admitted textJson s r := by
  intro h
  have hagain : History textJson [asked, withdrawn, askedAgain] { drain := some drainCompleted } :=
    .begin cancelled_once askedAgain begins_askedAgain none (by rintro _ ⟨⟩)
  have hcancelled : History textJson [asked, withdrawn, askedAgain, withdrawnAgain] { drain := some drainCompleted } :=
    .proceed hagain rfl withdrawnAgain rfl (Or.inr (by decide)) fun _ =>
      ⟨by rintro _ ⟨⟩ _; rfl, by rintro _ ⟨⟩, by rintro _ ⟨⟩⟩
  have hbegins : Begins [asked, withdrawn, askedAgain, withdrawnAgain] asked :=
    Or.inr ⟨withdrawnAgain, rfl, by decide, by decide⟩
  have hstaged : DrainOf textJson asked drainStaged := ⟨valid_staged, rfl, rfl, rfl⟩
  have hadmits := (h _ _ _ hcancelled hbegins).drain drainStaged hstaged rfl
  have hleft := (hcancelled.drainAdmits_iff hbegins hstaged rfl).mp hadmits
  exact hleft drainCompleted rfl rfl

end PowerMonitor.Reset.SideJournals
