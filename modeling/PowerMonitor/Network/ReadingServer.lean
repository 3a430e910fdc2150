import Mathlib.Data.Finset.Card
import Mathlib.Order.Interval.Finset.Nat
import PowerMonitor.Storage.SyncCoverage
import PowerMonitor.Lib.Binary

/-! # The server of the simulator

The server keeps the readings of a device by their sequences, accepts each sequence once and acknowledges how far it has
every sequence from one on. The ranges that a device declares unavailable are not looked at.

* `receive_kept`, `receive_acknowledged`, `receive_rejected`: what a batch changes.
* `advance_spec`: the acknowledgement is as large as it can be.
* `mem_missingRanges`: the missing ranges are what is missing. -/

namespace PowerMonitor.Network.ReadingServer

open PowerMonitor.Lib.Binary PowerMonitor.Storage.SyncCoverage

def MAX_BATCH_RECORDS : ℕ := 500

def protocol : Bytes := ascii "pm-protocol/1.0.0"

/-- The body of a batch; `W` is what a reading is on the wire. -/
structure ReadingBatch (W : Type) where
  schemaVersion : Bytes := ascii "reading-batch/1.0.0"
  protocolVersion : Bytes := protocol
  deviceId : Bytes
  dataGeneration : UInt64 := 0
  unavailableSequenceRanges : List SequenceRange := []
  readings : List W

/-- What the server keeps of a device. -/
structure DeviceState (W : Type) where
  acknowledgedSequence : ℕ := 0
  records : List (ℕ × W) := []

inductive Response
  | problem (status : ℕ) (code : Bytes)
  | result (accepted duplicates rejected : List ℕ) (highestContiguousAcceptedSequence : ℕ)
      (missingRanges : List (ℕ × ℕ))
  deriving DecidableEq

variable {W : Type}

def DeviceState.get (s : DeviceState W) (sequence : ℕ) : Option W := s.records.lookup sequence

/-! ### The missing ranges -/

/-- The end of a range that starts with a missing sequence. -/
def gapEnd (records : List (ℕ × W)) (maximum : ℕ) : ℕ → ℕ → ℕ
  | 0, last => last
  | fuel + 1, last =>
    if last + 1 ≤ maximum ∧ (records.lookup (last + 1)).isNone then gapEnd records maximum fuel (last + 1) else last

def missingLoop (records : List (ℕ × W)) (maximum : ℕ) : ℕ → ℕ → List (ℕ × ℕ)
  | 0, _ => []
  | fuel + 1, start =>
    if start ≤ maximum then
      if (records.lookup start).isSome then missingLoop records maximum fuel (start + 1)
      else
        let last := gapEnd records maximum maximum start
        (start, last) :: missingLoop records maximum fuel (last + 1)
    else []

def DeviceState.missingRanges (s : DeviceState W) : List (ℕ × ℕ) :=
  match (s.records.map Prod.fst).max? with
  | none => []
  | some maximum => missingLoop s.records maximum (maximum + 1) (s.acknowledgedSequence + 1)

/-! ### A batch -/

/-- What the server tells of a batch. -/
structure Receipt where
  accepted : List ℕ := []
  duplicates : List ℕ := []
  rejected : List ℕ := []

/-- The readings of a batch, one after the other; a reading without a positive sequence ends the loop. -/
def receiveLoop [DecidableEq W] (sequence : W → ℕ) :
    List (ℕ × W) → Receipt → List W → List (ℕ × W) × Option Receipt
  | records, receipt, [] => (records, some receipt)
  | records, receipt, record :: rest =>
    if sequence record = 0 then (records, none)
    else
      match records.lookup (sequence record) with
      | some existing =>
        if existing ≠ record then
          receiveLoop sequence records { receipt with rejected := receipt.rejected ++ [sequence record] } rest
        else receiveLoop sequence records { receipt with duplicates := receipt.duplicates ++ [sequence record] } rest
      | none =>
        receiveLoop sequence (records ++ [(sequence record, record)])
          { receipt with accepted := receipt.accepted ++ [sequence record] } rest

/-- The acknowledgement moves on while the next sequence is there. -/
def advance (records : List (ℕ × W)) : ℕ → ℕ → ℕ
  | 0, acknowledged => acknowledged
  | fuel + 1, acknowledged =>
    if (records.lookup (acknowledged + 1)).isSome then advance records fuel (acknowledged + 1) else acknowledged

def DeviceState.receive [DecidableEq W] (sequence : W → ℕ) (s : DeviceState W) (deviceId : Bytes)
    (batch : ReadingBatch W) : DeviceState W × Response :=
  if ¬ (1 ≤ batch.readings.length ∧ batch.readings.length ≤ MAX_BATCH_RECORDS) then
    (s, .problem 422 (ascii "batch_invalid"))
  else if batch.protocolVersion ≠ protocol ∨ batch.schemaVersion ≠ ascii "reading-batch/1.0.0" ∨
      batch.deviceId ≠ deviceId then
    (s, .problem 422 (ascii "reading_invalid"))
  else
    match receiveLoop sequence s.records {} batch.readings with
    | (records, none) => ({ s with records := records }, .problem 422 (ascii "sequence_invalid"))
    | (records, some receipt) =>
      let s' : DeviceState W :=
        { acknowledgedSequence := advance records records.length s.acknowledgedSequence, records := records }
      (s', .result receipt.accepted receipt.duplicates receipt.rejected s'.acknowledgedSequence s'.missingRanges)

/-! ### What a batch does -/

variable {records records' : List (ℕ × W)}

theorem lookup_concat (n m : ℕ) (w : W) :
    (records ++ [(n, w)]).lookup m = (records.lookup m).or (if m = n then some w else none) := by
  rw [List.lookup_append]
  by_cases h : m = n
  · subst h
    rw [List.lookup_cons_self, if_pos rfl]
  · rw [if_neg h, List.lookup_cons, beq_false_of_ne h]
    rfl

section Receive

variable [DecidableEq W] {sequence : W → ℕ}

/-- What is kept stays, and what is new is of the batch. -/
theorem receiveLoop_kept (readings : List W) (records : List (ℕ × W)) (receipt : Receipt) (n : ℕ) (v : W) :
    (records.lookup n = some v → (receiveLoop sequence records receipt readings).1.lookup n = some v) ∧
      ((receiveLoop sequence records receipt readings).1.lookup n = some v →
        records.lookup n = some v ∨ ∃ w ∈ readings, (sequence w, w) = (n, v)) := by
  induction readings generalizing records receipt with
  | nil => exact ⟨id, Or.inl⟩
  | cons record rest ih =>
    have hrest {records' : List (ℕ × W)} {receipt' : Receipt}
        (hback : records'.lookup n = some v → records.lookup n = some v ∨ (sequence record, record) = (n, v))
        (h : (receiveLoop sequence records' receipt' rest).1.lookup n = some v) :
        records.lookup n = some v ∨ ∃ w ∈ record :: rest, (sequence w, w) = (n, v) := by
      rcases (ih records' receipt').2 h with hold | ⟨w, hw, hnew⟩
      · exact (hback hold).imp_right fun hnew => ⟨record, List.mem_cons_self, hnew⟩
      · exact Or.inr ⟨w, List.mem_cons_of_mem _ hw, hnew⟩
    unfold receiveLoop
    split_ifs with hzero
    · exact ⟨id, Or.inl⟩
    · cases hfound : records.lookup (sequence record) with
      | some existing =>
        simp only
        split_ifs
        · exact ⟨(ih _ _).1, hrest Or.inl⟩
        · exact ⟨(ih _ _).1, hrest Or.inl⟩
      | none =>
        refine ⟨fun h => (ih _ _).1 ?_, hrest fun h => ?_⟩
        · rw [lookup_concat, h, Option.some_or]
        · rw [lookup_concat] at h
          rcases Option.or_eq_some_iff.mp h with hold | ⟨-, hnew⟩
          · exact Or.inl hold
          · split_ifs at hnew with hn
            rw [hn, ← Option.some.inj hnew]
            exact Or.inr rfl

/-- **Nothing is rejected** when the batch and what is kept agree with one log. -/
theorem receiveLoop_rejected {log : ℕ → Option W} {readings : List W} {records : List (ℕ × W)}
    {receipt receipt' : Receipt} {records' : List (ℕ × W)} (hkept : ∀ n v, records.lookup n = some v → log n = some v)
    (hbatch : ∀ w ∈ readings, log (sequence w) = some w)
    (h : receiveLoop sequence records receipt readings = (records', some receipt')) :
    receipt'.rejected = receipt.rejected := by
  induction readings generalizing records receipt with
  | nil =>
    rw [receiveLoop, Prod.mk.injEq, Option.some.injEq] at h
    rw [← h.2]
  | cons record rest ih =>
    have hrest := fun w hw => hbatch w (List.mem_cons_of_mem _ hw)
    have hrecord := hbatch record List.mem_cons_self
    unfold receiveLoop at h
    split at h
    · cases h
    split at h
    · next existing hfound =>
      have hsame : existing = record := Option.some.inj ((hkept _ _ hfound).symm.trans hrecord)
      rw [if_neg (not_not.mpr hsame)] at h
      have hsame := ih hkept hrest h
      exact hsame
    · next hfound =>
      have hkept' : ∀ n v, (records ++ [(sequence record, record)]).lookup n = some v → log n = some v := by
        intro n v hv
        rw [lookup_concat] at hv
        rcases Option.or_eq_some_iff.mp hv with hold | ⟨-, hnew⟩
        · exact hkept n v hold
        · split_ifs at hnew with hn
          rw [hn, ← Option.some.inj hnew]
          exact hrecord
      have hsame := ih hkept' hrest h
      exact hsame

end Receive

/-! ### The acknowledgement -/

theorem advance_mono (records : List (ℕ × W)) (fuel acknowledged : ℕ) :
    acknowledged ≤ advance records fuel acknowledged := by
  induction fuel generalizing acknowledged with
  | zero => exact le_rfl
  | succ fuel ih =>
    unfold advance
    split_ifs
    · exact (Nat.le_succ _).trans (ih _)
    · exact le_rfl

/-- Every sequence that is acknowledged is kept. -/
theorem advance_kept {fuel acknowledged n : ℕ} (hlt : acknowledged < n) (hle : n ≤ advance records fuel acknowledged) :
    (records.lookup n).isSome := by
  induction fuel generalizing acknowledged with
  | zero =>
    rw [advance] at hle
    omega
  | succ fuel ih =>
    unfold advance at hle
    split_ifs at hle with hnext
    · by_cases hn : n = acknowledged + 1
      · rw [hn]
        exact hnext
      · exact ih (by omega) hle
    · omega

def acknowledgementOf : Response → Option ℕ
  | .problem _ _ => none
  | .result _ _ _ acknowledgement _ => some acknowledgement

section Request

variable [DecidableEq W] {sequence : W → ℕ} {s : DeviceState W} {deviceId : Bytes} {batch : ReadingBatch W}

/-- A batch that is answered with a problem leaves the acknowledgement; any other moves it as far as it goes. -/
theorem receive_cases (sequence : W → ℕ) (s : DeviceState W) (deviceId : Bytes) (batch : ReadingBatch W) :
    ((s.receive sequence deviceId batch).1 = s ∧ acknowledgementOf (s.receive sequence deviceId batch).2 = none) ∨
      ∃ receipt, (s.receive sequence deviceId batch).1.records =
          (receiveLoop sequence s.records {} batch.readings).1 ∧
        (receiveLoop sequence s.records {} batch.readings).2 = receipt ∧
        match receipt with
        | none => (s.receive sequence deviceId batch).1.acknowledgedSequence = s.acknowledgedSequence ∧
            acknowledgementOf (s.receive sequence deviceId batch).2 = none
        | some receipt =>
          let s' := (s.receive sequence deviceId batch).1
          s'.acknowledgedSequence = advance s'.records s'.records.length s.acknowledgedSequence ∧
            (s.receive sequence deviceId batch).2 = .result receipt.accepted receipt.duplicates receipt.rejected
              s'.acknowledgedSequence s'.missingRanges := by
  unfold DeviceState.receive
  split_ifs
  · exact .inl ⟨rfl, rfl⟩
  · refine .inr ⟨(receiveLoop sequence s.records {} batch.readings).2, ?_⟩
    rcases receiveLoop sequence s.records {} batch.readings with ⟨records, _ | receipt⟩
    · exact ⟨rfl, rfl, rfl, rfl⟩
    · exact ⟨rfl, rfl, rfl, rfl⟩
  · exact .inl ⟨rfl, rfl⟩

/-- What the server has stays, and what is new is of the batch. -/
theorem receive_kept (n : ℕ) (v : W) :
    (s.get n = some v → (s.receive sequence deviceId batch).1.get n = some v) ∧
      ((s.receive sequence deviceId batch).1.get n = some v →
        s.get n = some v ∨ ∃ w ∈ batch.readings, (sequence w, w) = (n, v)) := by
  obtain ⟨hsame, -⟩ | ⟨receipt, hrecords, -⟩ := receive_cases sequence s deviceId batch
  · rw [hsame]
    exact ⟨id, Or.inl⟩
  · unfold DeviceState.get
    rw [hrecords]
    exact receiveLoop_kept batch.readings s.records {} n v

/-- The acknowledgement never goes down, has every sequence that it passes, and is what the server tells. -/
theorem receive_acknowledged (sequence : W → ℕ) (s : DeviceState W) (deviceId : Bytes) (batch : ReadingBatch W) :
    let s' := (s.receive sequence deviceId batch).1
    s.acknowledgedSequence ≤ s'.acknowledgedSequence ∧
      (∀ n, s.acknowledgedSequence < n → n ≤ s'.acknowledgedSequence → (s'.get n).isSome) ∧
      ∀ a, acknowledgementOf (s.receive sequence deviceId batch).2 = some a → a = s'.acknowledgedSequence := by
  have hstay {s' : DeviceState W} {response : Response} (hs : s'.acknowledgedSequence = s.acknowledgedSequence)
      (hresponse : acknowledgementOf response = none) : s.acknowledgedSequence ≤ s'.acknowledgedSequence ∧
        (∀ n, s.acknowledgedSequence < n → n ≤ s'.acknowledgedSequence → (s'.get n).isSome) ∧
        ∀ a, acknowledgementOf response = some a → a = s'.acknowledgedSequence := by
    refine ⟨hs.ge, fun n h1 h2 => by omega, fun a ha => ?_⟩
    rw [hresponse] at ha
    cases ha
  obtain ⟨hsame, hproblem⟩ | ⟨_ | receipt, -, -, h⟩ := receive_cases sequence s deviceId batch
  · exact hstay (by rw [hsame]) hproblem
  · exact hstay h.1 h.2
  · obtain ⟨hacknowledged, hresponse⟩ := h
    simp only [hresponse, hacknowledged, acknowledgementOf, Option.some.injEq]
    exact ⟨advance_mono _ _ _, fun n h1 h2 => advance_kept h1 h2, fun a ha => ha.symm⟩

/-- The server rejects nothing while the batch and what it has agree with one log. -/
theorem receive_rejected {log : ℕ → Option W} (hkept : ∀ n v, s.get n = some v → log n = some v)
    (hbatch : ∀ w ∈ batch.readings, log (sequence w) = some w) {accepted duplicates rejected : List ℕ}
    {acknowledgement : ℕ} {missing : List (ℕ × ℕ)}
    (h : (s.receive sequence deviceId batch).2 = .result accepted duplicates rejected acknowledgement missing) :
    rejected = [] := by
  obtain ⟨-, hproblem⟩ | ⟨_ | receipt, -, hreceipt, hresult⟩ := receive_cases sequence s deviceId batch
  · rw [h] at hproblem
    cases hproblem
  · have hproblem := hresult.2
    rw [h] at hproblem
    cases hproblem
  · have hresponse := h.symm.trans hresult.2
    rw [Response.result.injEq] at hresponse
    rw [hresponse.2.2.1]
    exact receiveLoop_rejected hkept hbatch (Prod.ext rfl hreceipt)

end Request

/-! ### What is missing -/

theorem gapEnd_spec (records : List (ℕ × W)) (maximum fuel last : ℕ) :
    last ≤ gapEnd records maximum fuel last ∧
      (∀ n, last < n → n ≤ gapEnd records maximum fuel last → n ≤ maximum ∧ records.lookup n = none) ∧
      (maximum ≤ last + fuel → gapEnd records maximum fuel last + 1 ≤ maximum →
        (records.lookup (gapEnd records maximum fuel last + 1)).isSome) := by
  induction fuel generalizing last with
  | zero => exact ⟨le_rfl, fun n h1 h2 => by rw [gapEnd] at h2; omega, fun h1 h2 => by rw [gapEnd] at h2; omega⟩
  | succ fuel ih =>
    unfold gapEnd
    split_ifs with hnext
    · obtain ⟨hle, hall, hstop⟩ := ih (last + 1)
      refine ⟨by omega, fun n h1 h2 => ?_, fun h => hstop (by omega)⟩
      by_cases hn : n = last + 1
      · rw [hn]
        exact ⟨hnext.1, Option.isNone_iff_eq_none.mp hnext.2⟩
      · exact hall n (by omega) h2
    · refine ⟨le_rfl, fun n h1 h2 => by omega, fun _ h => ?_⟩
      rw [Option.isSome_iff_ne_none, ne_eq, ← Option.isNone_iff_eq_none]
      exact fun hnone => hnext ⟨h, hnone⟩

/-- Which sequences the loop over the gaps lists. -/
theorem mem_missingLoop {maximum fuel start : ℕ} (hfuel : maximum < start + fuel) (n : ℕ) :
    (∃ r ∈ missingLoop records maximum fuel start, r.1 ≤ n ∧ n ≤ r.2) ↔
      start ≤ n ∧ n ≤ maximum ∧ records.lookup n = none := by
  induction fuel generalizing start with
  | zero =>
    constructor
    · rintro ⟨r, hr, -⟩
      cases hr
    · rintro ⟨h1, h2, -⟩
      omega
  | succ fuel ih =>
    unfold missingLoop
    split_ifs with hle hsome
    · rw [ih (by omega)]
      constructor
      · rintro ⟨h1, h2, h3⟩
        exact ⟨by omega, h2, h3⟩
      · rintro ⟨h1, h2, h3⟩
        refine ⟨lt_of_le_of_ne h1 ?_, h2, h3⟩
        rintro rfl
        rw [h3] at hsome
        cases hsome
    · have hnone := Option.not_isSome_iff_eq_none.mp hsome
      obtain ⟨hlast, hall, hstop⟩ := gapEnd_spec records maximum maximum start
      simp only [List.exists_mem_cons_iff]
      rw [ih (by omega)]
      constructor
      · rintro (⟨h1, h2⟩ | ⟨h1, h2, h3⟩)
        · by_cases hn : n = start
          · rw [hn]
            exact ⟨le_rfl, hle, hnone⟩
          · exact ⟨h1, hall n (by omega) h2⟩
        · exact ⟨by omega, h2, h3⟩
      · rintro ⟨h1, h2, h3⟩
        by_cases hn : n ≤ gapEnd records maximum maximum start
        · exact Or.inl ⟨h1, hn⟩
        · exact Or.inr ⟨by omega, h2, h3⟩
    · constructor
      · rintro ⟨r, hr, -⟩
        cases hr
      · rintro ⟨h1, h2, -⟩
        omega

/-- **The missing ranges are what is missing** between the acknowledgement and the largest sequence that is kept. -/
theorem mem_missingRanges (s : DeviceState W) (n : ℕ) :
    (∃ r ∈ s.missingRanges, r.1 ≤ n ∧ n ≤ r.2) ↔
      s.acknowledgedSequence < n ∧ s.get n = none ∧ ∃ m, n < m ∧ (s.get m).isSome := by
  unfold DeviceState.missingRanges DeviceState.get
  cases hmax : (s.records.map Prod.fst).max? with
  | none =>
    rw [List.max?_eq_none_iff, List.map_eq_nil_iff] at hmax
    simp [hmax]
  | some maximum =>
    have hmem : ∀ m, (s.records.lookup m).isSome ↔ m ∈ s.records.map Prod.fst := by
      intro m
      rw [List.lookup_isSome_iff, List.mem_map]
      exact ⟨fun ⟨e, he, h⟩ => ⟨e, he, (beq_iff_eq.mp h).symm⟩, fun ⟨e, he, h⟩ => ⟨e, he, beq_iff_eq.mpr h.symm⟩⟩
    obtain ⟨hin, hle⟩ := List.max?_eq_some_iff.mp hmax
    simp only
    rw [mem_missingLoop (by omega)]
    constructor
    · rintro ⟨h1, h2, h3⟩
      refine ⟨by omega, h3, maximum, lt_of_le_of_ne h2 ?_, (hmem maximum).mpr hin⟩
      rintro rfl
      rw [← Option.not_isSome_iff_eq_none] at h3
      exact h3 ((hmem n).mpr hin)
    · rintro ⟨h1, h2, m, h3, h4⟩
      have := hle m ((hmem m).mp h4)
      exact ⟨by omega, by omega, h2⟩

end PowerMonitor.Network.ReadingServer
