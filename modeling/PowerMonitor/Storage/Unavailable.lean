import Mathlib.Order.Interval.Finset.Nat
import PowerMonitor.Storage.Intact

/-! # What a page declares unavailable

A page declares a sequence unavailable because the walk did not see it. A reading that is on the card
and that the walk does not see (its file does not open, its index rows or the query's times leave it
out) is then declared unavailable too, when the page goes past it. `declares_no_retained` says exactly
when no page does this to a retained reading: each one that is not seen comes after everything that
is. -/

namespace PowerMonitor.Storage.Unavailable

open PowerMonitor.Lib.Binary PowerMonitor.Lib.Lines PowerMonitor.Lib.Json
open PowerMonitor.Storage.RecordFormat PowerMonitor.Storage.Reading PowerMonitor.Storage.Media
open PowerMonitor.Storage.Segment PowerMonitor.Storage.SyncCoverage PowerMonitor.Storage.ReadPage
open PowerMonitor.Storage.PageSpec PowerMonitor.Lib.Walk

/-- A file of the card holds a complete envelope of a reading that can be synchronised, under the
sequence. -/
def Retained (j : JsonLibrary) (card : Card) (sequence : ℕ) : Prop :=
  ∃ path content line e, card.lookup path = some content ∧ (ascii ".pmr").isSuffixOf path = true ∧
    line ∈ lines content ∧ decodeLine j .readings line = .ok e ∧ e.syncable = true ∧
    e.sequence = sequence

/-- A query for what can be synchronised, with what fits on its page. -/
def syncPage (after fromUtcMs toUtcMs : UInt64) (limit : UInt16) (maximumPayloadBytes : UInt32) :
    HistoryQuery where
  afterSequence := after
  fromUtcMs := fromUtcMs
  toUtcMs := toUtcMs
  limit := limit
  maximumPayloadBytes := maximumPayloadBytes
  requireSyncable := true

/-- **A delivered page declares no retained reading unavailable.** -/
def DeclaresNoRetained (j : JsonLibrary) (card : Card) (page : HistoryPage) : Prop :=
  page.ok = true → ∀ r ∈ page.unavailableSequenceRanges, ∀ s, r.Contains s → ¬ Retained j card s

/-- **A retained reading that the walk does not see comes after all it sees**, and it sees some. -/
def SeenFirst (j : JsonLibrary) (card : Card) (health : Health) (q : HistoryQuery) (es : List Entry) :
    Prop :=
  ∀ s, Retained j card s → q.afterSequence.toNat < s → s ≤ maximumScanned health q →
    (∃ e ∈ es, e.sequence = s) ∨ (es ≠ [] ∧ ∀ e ∈ es, e.sequence < s)

variable {j : JsonLibrary} {card : Card} {faults : ReadFaults} {health : Health}
  {after fromUtcMs toUtcMs : UInt64}

theorem visible_wanted {q : HistoryQuery} {es : List Entry} (h : visibleEntries j card faults q = some es) :
    ∀ e ∈ es, q.wants e = true := by
  obtain ⟨all, -, rfl⟩ := Option.map_eq_some_iff.mp h
  intro e he
  exact (List.mem_filter.mp he).2

theorem visible_after {q : HistoryQuery} {es : List Entry} (h : visibleEntries j card faults q = some es) :
    ∀ e ∈ es, q.afterSequence.toNat < e.sequence ∧ e.sequence ≤ q.scanCeiling := fun e he =>
  Intact.wants_bounds (visible_wanted h e he)

/-- A retained reading after all that is seen is not reached by a page. -/
theorem declaresNoRetained_of_seenFirst {q : HistoryQuery} (hsync : q.requireSyncable = true)
    (hseen : ∀ es, visibleEntries j card faults q = some es → SeenFirst j card health q es) :
    DeclaresNoRetained j card (readPage j card faults health q) := by
  intro hok r hr s hs hretained
  obtain ⟨-, es, hvisible, -, hpage⟩ := (readPage_ok_iff hsync _).mp ⟨rfl, hok⟩
  have hafter := fun e he => (visible_after hvisible e he).1
  obtain ⟨covered, hacc⟩ := accounts_pageOf health hsync hafter
  rw [← hpage] at hacc
  obtain ⟨h1, h2, h3⟩ := (hacc.unavailable_iff s).mp ⟨r, hr, hs⟩
  have hbound := hacc.bound (by omega)
  have hdesired : desiredEnd (maximumScanned health q) (chosen q es) ≤ maximumScanned health q := by
    unfold desiredEnd
    split <;> omega
  rcases hseen es hvisible s hretained h1 (by omega) with ⟨e, he, rfl⟩ | ⟨hne, hlast⟩
  · exact h3 (hacc.sent e he h2)
  · -- some entry is seen, and those that are covered are candidates: the page ends with one of them
    obtain ⟨e, he⟩ := List.exists_mem_of_ne_nil es hne
    have hle := hlast e he
    have hchosen := hacc.sent e he (by omega)
    unfold desiredEnd at hbound
    cases hmax : (chosen q es).max? with
    | none => rw [List.max?_eq_none_iff.mp hmax] at hchosen; cases hchosen
    | some m =>
      rw [hmax] at hbound
      obtain ⟨c, hc, rfl⟩ := mem_chosen (List.max?_mem hmax)
      have := hlast c hc
      simp only at hbound
      omega

/-! ### A page that holds all that is seen -/

theorem length_envelopePayload_le (line : Bytes) (separator : ℕ) :
    (envelopePayload line separator).length ≤ line.length := by
  unfold envelopePayload
  split_ifs <;> simp [List.length_take]

theorem length_payload_le {line : Bytes} {e : Entry} (h : decodeLine j .readings line = .ok e) :
    e.payload.length ≤ line.length := by
  unfold decodeLine at h
  cases hd : decodeEnvelope line with
  | none => simp [hd] at h
  | some decoded =>
    obtain ⟨payload, checksum⟩ := decoded
    have hpayload : payload.length ≤ line.length := by
      unfold decodeEnvelope at hd
      split_ifs at hd
      split at hd
      · cases hd
      · split_ifs at hd
        split at hd
        · cases hd
        · simp only at hd
          split_ifs at hd
          cases hd
          exact length_envelopePayload_le ..
    rw [hd] at h
    simp only at h
    split at h
    · cases h
    · cases h; exact hpayload

/-- Every payload of a page comes from a line. -/
theorem visible_payload_le {q : HistoryQuery} {es : List Entry}
    (h : visibleEntries j card faults q = some es) : ∀ e ∈ es, e.payload.length ≤ maximumLine := by
  obtain ⟨all, hall, rfl⟩ := Option.map_eq_some_iff.mp h
  intro e he
  obtain ⟨path, -, entries, hentries, he⟩ := (mem_of_gather hall e).mp (List.mem_filter.mp he).1
  unfold segmentEntries at hentries
  split at hentries
  · cases hentries; cases he
  · cases hentries
  · split_ifs at hentries
    unfold contentEntries at hentries
    split_ifs at hentries
    obtain ⟨line, -, first, hfirst, he⟩ := (mem_of_gather hentries e).mp he
    obtain ⟨hlen, e', hdecode, rfl⟩ := Intact.lineEntries_eq_some.mp hfirst
    rw [List.mem_singleton.mp he]
    exact (length_payload_le hdecode).trans hlen

/-- Distinct sequences of a window are at most 500. -/
theorem length_le_of_nodup {q : HistoryQuery} (hsync : q.requireSyncable = true) {es : List Entry}
    (hbounds : ∀ e ∈ es, q.afterSequence.toNat < e.sequence ∧ e.sequence ≤ q.scanCeiling)
    (hnodup : (es.map Entry.sequence).Nodup) : es.length ≤ 500 := by
  have hsub : (es.map Entry.sequence).toFinset ⊆ Finset.Ioc q.afterSequence.toNat q.scanCeiling := by
    intro s hs
    obtain ⟨e, he, rfl⟩ := List.mem_map.mp (List.mem_toFinset.mp hs)
    exact Finset.mem_Ioc.mpr (hbounds e he)
  have hcard := Finset.card_le_card hsub
  rw [List.toFinset_card_of_nodup hnodup, List.length_map, Nat.card_Ioc] at hcard
  have := scanCeiling_eq hsync
  omega

theorem payloadBytes_le {es : List Entry} {bound : ℕ} (h : ∀ e ∈ es, e.payload.length ≤ bound) :
    payloadBytes es ≤ es.length * bound := by
  induction es with
  | nil => simp [payloadBytes]
  | cons e es ih =>
    have h1 := h e (by simp)
    have h2 := ih fun e he => h e (by simp [he])
    simp only [payloadBytes, List.map_cons, List.sum_cons, List.length_cons, Nat.succ_mul] at h2 ⊢
    omega

/-- On the largest page, everything that is seen is a candidate. -/
theorem chosen_largest {es : List Entry}
    (h : visibleEntries j card faults (syncPage after fromUtcMs toUtcMs 500 4096000) = some es)
    (hnodup : (es.map Entry.sequence).Nodup) (s : ℕ) :
    s ∈ chosen (syncPage after fromUtcMs toUtcMs 500 4096000) es ↔ ∃ e ∈ es, e.sequence = s := by
  have hlength := length_le_of_nodup rfl (visible_after h) hnodup
  have hbytes := payloadBytes_le (visible_payload_le h)
  have hroom : payloadBytes es ≤ 4096000 := by simp only [maximumLine] at hbytes; omega
  have hperm := candidatesOf_all hlength hroom
  have hmem := (hperm.map Entry.sequence).mem_iff (a := s)
  simp only [List.mem_map] at hmem
  exact List.mem_map.trans hmem

/-- **The exact condition** under which the pages after a cursor, of whatever size, declare no retained
reading unavailable. -/
def Clear (j : JsonLibrary) (card : Card) (faults : ReadFaults) (health : Health)
    (after fromUtcMs toUtcMs : UInt64) : Prop :=
  historyExpired health (syncPage after fromUtcMs toUtcMs 0 0) = true ∨
    ∀ es, visibleEntries j card faults (syncPage after fromUtcMs toUtcMs 0 0) = some es →
      SeenFirst j card health (syncPage after fromUtcMs toUtcMs 0 0) es

theorem declares_no_retained_iff (j : JsonLibrary) (card : Card) (faults : ReadFaults) (health : Health)
    (after fromUtcMs toUtcMs : UInt64) :
    (Clear j card faults health after fromUtcMs toUtcMs → ∀ limit maximumPayloadBytes,
      DeclaresNoRetained j card
        (readPage j card faults health (syncPage after fromUtcMs toUtcMs limit maximumPayloadBytes))) ∧
    ((∀ es, visibleEntries j card faults (syncPage after fromUtcMs toUtcMs 0 0) = some es →
        (es.map Entry.sequence).Nodup) →
      (∀ limit maximumPayloadBytes, DeclaresNoRetained j card
        (readPage j card faults health (syncPage after fromUtcMs toUtcMs limit maximumPayloadBytes))) →
      Clear j card faults health after fromUtcMs toUtcMs) := by
  constructor
  · rintro (hexpired | hseen) limit bytes
    · intro hok
      have hfresh := ((readPage_ok_iff rfl _).mp ⟨rfl, hok⟩).1
      rw [show historyExpired health (syncPage after fromUtcMs toUtcMs limit bytes) =
        historyExpired health (syncPage after fromUtcMs toUtcMs 0 0) from rfl, hexpired] at hfresh
      cases hfresh
    · exact declaresNoRetained_of_seenFirst rfl hseen
  · intro hnodup hsafe
    by_contra hclear
    simp only [Clear, not_or, not_forall, Bool.not_eq_true] at hclear
    obtain ⟨hfresh, es, hvisible, hnot⟩ := hclear
    simp only [SeenFirst, not_forall, not_or, not_exists, not_and] at hnot
    obtain ⟨s, hretained, hafter, hscan, hunseen, hlast⟩ := hnot
    have hvisible' : visibleEntries j card faults (syncPage after fromUtcMs toUtcMs 500 4096000) = some es :=
      hvisible
    have hchosen := chosen_largest hvisible' (hnodup es hvisible)
    obtain ⟨hpage, hok⟩ : readPage j card faults health (syncPage after fromUtcMs toUtcMs 500 4096000) =
        pageOf health (syncPage after fromUtcMs toUtcMs 500 4096000) es ∧
        (pageOf health (syncPage after fromUtcMs toUtcMs 500 4096000) es).ok = true :=
      (readPage_ok_iff rfl _).mpr ⟨hfresh, es, hvisible', fun e he =>
        (visible_payload_le hvisible' e he).trans (show 8192 ≤ (4096000 : UInt32).toNat by decide), rfl⟩
    have hafter' : ∀ e ∈ es, (syncPage after fromUtcMs toUtcMs 500 4096000).afterSequence.toNat < e.sequence :=
      fun e he => (visible_after hvisible' e he).1
    obtain ⟨covered, hacc⟩ := accounts_pageOf health rfl hafter'
    -- the page goes past the reading that is not seen
    have hcovered : s ≤ covered := by
      have hceiling := scanCeiling_eq (q := syncPage after fromUtcMs toUtcMs 500 4096000) rfl
      have hle : maximumScanned health (syncPage after fromUtcMs toUtcMs 500 4096000) ≤
          (syncPage after fromUtcMs toUtcMs 500 4096000).scanCeiling := Nat.min_le_right _ _
      have hscan' : s ≤ maximumScanned health (syncPage after fromUtcMs toUtcMs 500 4096000) := hscan
      have hafter' : (syncPage after fromUtcMs toUtcMs 500 4096000).afterSequence.toNat < s := hafter
      rcases hacc.stop (by omega) with h | ⟨h, h'⟩ | ⟨-, h⟩
      · rw [h, desiredEnd]
        cases hmax : (chosen (syncPage after fromUtcMs toUtcMs 500 4096000) es).max? with
        | none => exact hscan'
        | some m =>
          obtain ⟨c, hc, -⟩ := mem_chosen (List.max?_mem hmax)
          obtain ⟨e, he, hle⟩ := hlast (List.ne_nil_of_mem hc)
          have hmax' := (List.max?_eq_some_iff.mp hmax).2 _ ((hchosen _).mpr ⟨e, he, rfl⟩)
          simp only
          omega
      · obtain ⟨e, he, heq⟩ := List.mem_map.mp h
        exact absurd ((hchosen _).mpr ⟨e, he, heq⟩) h'
      · omega
    have hnot : s ∉ chosen (syncPage after fromUtcMs toUtcMs 500 4096000) es := fun h => by
      obtain ⟨e, he, heq⟩ := (hchosen s).mp h
      exact hunseen e he heq
    obtain ⟨r, hr, hcontains⟩ := (hacc.unavailable_iff s).mpr ⟨hafter, hcovered, hnot⟩
    exact hsafe 500 4096000 (by rw [hpage]; exact hok) r (by rw [hpage]; exact hr) s hcontains hretained

/-- A trusted reading of a minute. -/
def minuteReading (sequence startUtcMs : UInt64) : IntervalRecord where
  sequence := sequence
  startUtcMs := startUtcMs
  endUtcMs := startUtcMs + 60000
  timeTrusted := true

/-- Two days with a reading each. -/
def twoDays : Card :=
  AList.insert (recordPath (minuteReading 2 1700089200000))
    (recordEnvelope textJson (minuteReading 2 1700089200000))
    (AList.insert (recordPath (minuteReading 1 1700002800000))
      (recordEnvelope textJson (minuteReading 1 1700002800000)) ∅)

/-- The file of the first day does not open. -/
def firstDayFails : ReadFaults where
  opens purpose path := purpose ≠ .scan || path ≠ recordPath (minuteReading 1 1700002800000)

theorem twoDays_pages :
    (visibleEntries textJson twoDays {} (syncPage 0 0 0 0 0)).map (·.map Entry.sequence) = some [1, 2] ∧
    (readPage textJson twoDays firstDayFails { oldestSequence := 1, newestSequence := 2 } (syncQuery 0)).ok = true ∧
      (readPage textJson twoDays firstDayFails { oldestSequence := 1, newestSequence := 2 }
        (syncQuery 0)).unavailableSequenceRanges = [⟨1, 1⟩] := by decide +kernel

/-- With every file open, no page of these days declares a reading unavailable. -/
theorem opened_declares_none : ∀ limit maximumPayloadBytes, DeclaresNoRetained textJson twoDays
    (readPage textJson twoDays {} { oldestSequence := 1, newestSequence := 2 }
      (syncPage 0 0 0 limit maximumPayloadBytes)) := by
  have hseen := twoDays_pages.1
  refine (declares_no_retained_iff ..).1 (Or.inr fun es hes s _ hafter hscan => Or.inl ?_)
  rw [hes, Option.map_some, Option.some.injEq] at hseen
  have hafter' : 0 < s := hafter
  have hscan' : s ≤ min 2 500 := hscan
  have hmem : s ∈ es.map Entry.sequence := by
    rw [hseen]
    simp only [List.mem_cons, List.not_mem_nil, or_false]
    omega
  simpa using hmem

/-- **A reading on the card is declared unavailable**, because its file does not open. -/
theorem unopened_declared :
    ¬ DeclaresNoRetained textJson twoDays (readPage textJson twoDays firstDayFails
      { oldestSequence := 1, newestSequence := 2 } (syncQuery 0)) := by
  intro h
  have hpage := twoDays_pages.2
  have hline : lines (recordEnvelope textJson (minuteReading 1 1700002800000)) =
      [recordEnvelope textJson (minuteReading 1 1700002800000)] := by
    obtain ⟨init, hinit, hnewline⟩ := Intact.recordEnvelope_line textJson_lawful
      (minuteReading 1 1700002800000)
    rw [hinit]
    exact (lines_line hnewline []).1
  refine h hpage.1 ⟨1, 1⟩ (by rw [hpage.2]; simp) 1 (by decide)
    ⟨recordPath (minuteReading 1 1700002800000), _, recordEnvelope textJson (minuteReading 1 1700002800000),
      _, ?_, by decide, by rw [hline]; simp, Intact.decodeLine_recordEnvelope textJson_lawful _,
      by decide, by decide⟩
  unfold twoDays
  rw [AList.lookup_insert_ne (by decide)]
  exact AList.lookup_insert _

end PowerMonitor.Storage.Unavailable
