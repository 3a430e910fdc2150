import Mathlib.Data.List.TakeWhile
import PowerMonitor.Lib.Walk
import PowerMonitor.Storage.ReadPage

/-! # What a page holds

The entries a walk sees do not depend on how much fits on the page: `visibleEntries` are the wanted
entries of all the files it reads. A page is delivered when it can read them and each fits
(`readPage_ok_iff`); then it accounts for the sequences from the cursor to where its coverage ends
(`readPage_spec`).

* `candidatesOf_min`: the smallest visible sequence is among the candidates.
* `candidatesOf_all`: all the visible entries are, if they fit. -/

namespace PowerMonitor.Storage.PageSpec

open PowerMonitor.Lib.Binary PowerMonitor.Lib.Lines PowerMonitor.Lib.Json PowerMonitor.Lib.Walk
open PowerMonitor.Storage.RecordFormat PowerMonitor.Storage.Reading PowerMonitor.Storage.Media
open PowerMonitor.Storage.Segment PowerMonitor.Storage.SyncCoverage PowerMonitor.Storage.ReadPage

/-! ### The entries a walk sees -/

/-- The entry of a line that is not too long. -/
def lineEntries (j : JsonLibrary) (kind : SegmentKind) (line : Bytes) : Option (List Entry) :=
  if maximumLine < line.length then none else (decodeLine j kind line).toOption.map ([·])

/-- The entries of a text of complete lines. -/
def contentEntries (j : JsonLibrary) (kind : SegmentKind) (content : Bytes) : Option (List Entry) :=
  if unterminated content = [] then gather (lineEntries j kind) (lines content) else none

def segmentEntries (j : JsonLibrary) (card : Card) (faults : ReadFaults) (kind : SegmentKind)
    (q : HistoryQuery) (path : Bytes) : Option (List Entry) :=
  match visitSegment j card faults kind q path with
  | .skip => some []
  | .seekFailed => none
  | .read content => if faults.readFails path = none then contentEntries j kind content else none

/-- The wanted entries of all files, in the order of the walk, if the walk can read them. -/
def visibleEntries (j : JsonLibrary) (card : Card) (faults : ReadFaults) (q : HistoryQuery) :
    Option (List Entry) :=
  (gather (segmentEntries j card faults .readings q) (recordFiles card)).map (·.filter q.wants)

variable {j : JsonLibrary} {card : Card} {faults : ReadFaults} {kind : SegmentKind} {q : HistoryQuery}
  {health : Health}

theorem scanLine_eq_ok (s : Scan) (line : Bytes) (s' : Scan) :
    scanLine j kind q s line = .ok s' ↔
      ∃ es, lineEntries j kind line = some es ∧ es.foldlM (processEntry q) s = .ok s' := by
  unfold scanLine lineEntries processLine
  split_ifs with h
  · simp
  · cases decodeLine j kind line with
    | error e => simp [bind, Except.bind, Except.toOption]
    | ok e =>
      simp only [bind, Except.bind, Except.toOption, Option.map_some, Option.some.injEq, exists_eq_left',
        List.foldlM_cons, List.foldlM_nil]
      cases processEntry q s e <;> simp [pure, Except.pure]

theorem scanContent_eq_ok (content : Bytes) (s s' : Scan) :
    scanContent j kind q content none s = .ok s' ↔
      ∃ es, contentEntries j kind content = some es ∧ es.foldlM (processEntry q) s = .ok s' := by
  have hwalk := foldlM_eq_ok_iff (@scanLine_eq_ok j kind q) (lines content) s s'
  unfold contentEntries
  by_cases hrest : unterminated content = []
  · rw [if_pos hrest, ← hwalk]
    simp only [scanContent, scanRest, hrest]
    cases (lines content).foldlM (scanLine j kind q) s <;> simp [bind, Except.bind, pure, Except.pure]
  · rw [if_neg hrest]
    simp only [scanContent, scanRest, Option.isSome_none, Bool.false_eq_true, if_false, if_pos hrest]
    cases (lines content).foldlM (scanLine j kind q) s <;>
      by_cases hlong : maximumLine < (unterminated content).length <;>
      simp [bind, Except.bind, hlong]

theorem scanContent_readFails (content : Bytes) (k : ℕ) (s s' : Scan) :
    scanContent j kind q content (some k) s ≠ .ok s' := by
  simp only [scanContent, scanRest, Option.isSome_some, if_true]
  cases (lines (content.take k)).foldlM (scanLine j kind q) s <;>
    by_cases hlong : maximumLine < (unterminated (content.take k)).length <;>
    simp [bind, Except.bind, hlong]

theorem scanSegment_eq_ok (s : Scan) (path : Bytes) (s' : Scan) :
    scanSegment j card faults kind q s path = .ok s' ↔
      ∃ es, segmentEntries j card faults kind q path = some es ∧
        es.foldlM (processEntry q) s = .ok s' := by
  unfold scanSegment segmentEntries
  cases visitSegment j card faults kind q path with
  | skip => simp [pure, Except.pure]
  | seekFailed => simp
  | read content =>
    cases hread : faults.readFails path with
    | none => simpa using scanContent_eq_ok content s s'
    | some k => simp [scanContent_readFails]

/-- The walk over entries admits the wanted ones, if each fits on a page. -/
theorem processEntries_eq_ok (es : List Entry) (s s' : Scan) :
    es.foldlM (processEntry q) s = .ok s' ↔
      (∀ e ∈ es.filter q.wants, e.payload.length ≤ q.maximumPayloadBytes.toNat) ∧
        s' = (es.filter q.wants).foldl (observe q) s := by
  induction es generalizing s with
  | nil => simp [pure, Except.pure, eq_comm]
  | cons e es ih =>
    rw [List.foldlM_cons]
    by_cases hw : q.wants e = true
    · rw [List.filter_cons_of_pos hw, List.forall_mem_cons, List.foldl_cons]
      by_cases hl : q.maximumPayloadBytes.toNat < e.payload.length
      · have hstep : processEntry q s e = .error .recordExceedsPageLimit := by simp [processEntry, hw, hl]
        rw [hstep]
        simp [bind, Except.bind, hl]
      · have hstep : processEntry q s e = .ok (observe q s e) := by simp [processEntry, hw, hl]
        rw [hstep]
        simp only [bind, Except.bind, Nat.le_of_not_lt hl, true_and]
        exact ih _
    · have hstep : processEntry q s e = .ok s := by simp [processEntry, hw]
      rw [hstep, List.filter_cons_of_neg hw]
      exact ih s

/-! ### Candidates -/

/-- The candidates after some entries. -/
def candidatesOf (limit maximumBytes : ℕ) (es : List Entry) : List Entry :=
  es.foldl (fun cs e => insertCandidate limit maximumBytes e cs) []

/-- The candidates are in the order of their sequences. -/
def Ordered (cs : List Entry) : Prop := cs.Pairwise fun a b => a.sequence ≤ b.sequence

theorem dropExcess_suffix (limit maximumBytes : ℕ) (cs : List Entry) :
    dropExcess limit maximumBytes cs <:+ cs := by
  induction cs with
  | nil => exact List.suffix_rfl
  | cons e cs ih =>
    unfold dropExcess
    split
    · exact ih.trans (List.suffix_cons e cs)
    · exact List.suffix_rfl

theorem dropExcess_of_fits {limit maximumBytes : ℕ} {cs : List Entry} (hlength : cs.length ≤ limit)
    (hbytes : payloadBytes cs ≤ maximumBytes) : dropExcess limit maximumBytes cs = cs := by
  cases cs with
  | nil => rfl
  | cons e cs => unfold dropExcess; rw [if_neg (by omega)]

/-- What is kept is some of the first candidates. -/
theorem trimmed_initial (limit maximumBytes : ℕ) (cs : List Entry) :
    (dropExcess limit maximumBytes cs.reverse).reverse <+: cs := by
  have := List.reverse_prefix.mpr (dropExcess_suffix limit maximumBytes cs.reverse)
  rwa [List.reverse_reverse] at this

/-- The first candidate is kept, if it fits alone. -/
theorem dropExcess_ne_nil {limit maximumBytes : ℕ} (hlimit : 0 < limit) {cs : List Entry} (hne : cs ≠ [])
    (hfits : ∀ e ∈ cs, e.payload.length ≤ maximumBytes) : dropExcess limit maximumBytes cs ≠ [] := by
  induction cs with
  | nil => exact absurd rfl hne
  | cons e cs ih =>
    unfold dropExcess
    split
    · next h =>
      refine ih ?_ fun c hc => hfits c (by simp [hc])
      rintro rfl
      have := hfits e (by simp)
      simp [payloadBytes] at h
      omega
    · simp

theorem takeWhile_append_insert_perm (p : Entry → Bool) (e : Entry) (cs : List Entry) :
    (cs.takeWhile p ++ e :: cs.dropWhile p).Perm (e :: cs) := by
  refine List.perm_middle.trans ?_
  rw [List.takeWhile_append_dropWhile]

theorem mem_insertCandidate {limit maximumBytes : ℕ} {e c : Entry} {cs : List Entry}
    (h : c ∈ insertCandidate limit maximumBytes e cs) : c = e ∨ c ∈ cs := by
  unfold insertCandidate at h
  simp only at h
  split at h
  · exact Or.inr h
  · have := (trimmed_initial limit maximumBytes _).subset h
    simpa using (takeWhile_append_insert_perm _ e cs).mem_iff.mp this

theorem mem_candidatesOf {limit maximumBytes : ℕ} {c : Entry} {es : List Entry}
    (h : c ∈ candidatesOf limit maximumBytes es) : c ∈ es := by
  induction es using List.reverseRecOn with
  | nil => exact h
  | append_singleton es e ih =>
    rw [candidatesOf, List.foldl_append] at h
    rcases mem_insertCandidate h with rfl | h
    · simp
    · simp [ih h]

theorem ordered_insert {e : Entry} {cs : List Entry} (h : Ordered cs) :
    Ordered (cs.takeWhile (fun c => decide (c.sequence < e.sequence)) ++
      e :: cs.dropWhile fun c => decide (c.sequence < e.sequence)) := by
  induction cs with
  | nil => simp [Ordered]
  | cons c cs ih =>
    rw [Ordered, List.pairwise_cons] at h
    by_cases hc : c.sequence < e.sequence
    · rw [List.takeWhile_cons_of_pos (by simpa using hc), List.dropWhile_cons_of_pos (by simpa using hc),
        List.cons_append, Ordered, List.pairwise_cons]
      refine ⟨fun d hd => ?_, ih h.2⟩
      rcases List.mem_cons.mp ((takeWhile_append_insert_perm _ e cs).mem_iff.mp hd) with rfl | hd
      · omega
      · exact h.1 d hd
    · rw [List.takeWhile_cons_of_neg (by simpa using hc), List.dropWhile_cons_of_neg (by simpa using hc),
        List.nil_append, Ordered, List.pairwise_cons, List.pairwise_cons]
      refine ⟨fun d hd => ?_, h⟩
      rcases List.mem_cons.mp hd with rfl | hd
      · omega
      · have := h.1 d hd
        omega

theorem ordered_insertCandidate {limit maximumBytes : ℕ} {e : Entry} {cs : List Entry} (h : Ordered cs) :
    Ordered (insertCandidate limit maximumBytes e cs) := by
  unfold insertCandidate
  simp only
  split
  · exact h
  · exact (ordered_insert h).sublist (trimmed_initial ..).sublist

theorem ordered_candidatesOf (limit maximumBytes : ℕ) (es : List Entry) :
    Ordered (candidatesOf limit maximumBytes es) := by
  induction es using List.reverseRecOn with
  | nil => exact List.Pairwise.nil
  | append_singleton es e ih =>
    rw [candidatesOf, List.foldl_append]
    exact ordered_insertCandidate ih

/-- The first candidate has the smallest sequence. -/
def Leads (cs es : List Entry) : Prop :=
  ∃ c ∈ cs, ∀ e ∈ es, c.sequence ≤ e.sequence

theorem leads_insertCandidate {limit maximumBytes : ℕ} (hlimit : 0 < limit) {cs es : List Entry} {e : Entry}
    (hordered : Ordered cs) (hsub : ∀ c ∈ cs, c ∈ es) (hlead : es ≠ [] → Leads cs es)
    (hfits : ∀ c ∈ e :: es, c.payload.length ≤ maximumBytes) :
    Leads (insertCandidate limit maximumBytes e cs) (es ++ [e]) := by
  have hperm := takeWhile_append_insert_perm (fun c => decide (c.sequence < e.sequence)) e cs
  unfold insertCandidate
  simp only
  split
  · next h =>
    -- The page is full with smaller sequences.
    obtain ⟨d, hd⟩ := List.exists_mem_of_length_pos (l := cs) (by omega)
    obtain ⟨c, hc, hmin⟩ := hlead (List.ne_nil_of_mem (hsub d hd))
    have hless : ∀ c ∈ cs, c.sequence < e.sequence := by
      simpa using List.dropWhile_eq_nil_iff.mp h.2
    refine ⟨c, hc, fun x hx => ?_⟩
    rcases List.mem_append.mp hx with hx | hx
    · exact hmin x hx
    · rw [List.mem_singleton.mp hx]; exact (hless c hc).le
  · have hall : ∀ c ∈ cs.takeWhile (fun c => decide (c.sequence < e.sequence)) ++
        e :: cs.dropWhile (fun c => decide (c.sequence < e.sequence)), c.payload.length ≤ maximumBytes := by
      intro c hc
      rcases List.mem_cons.mp (hperm.mem_iff.mp hc) with rfl | hc
      · exact hfits c (by simp)
      · exact hfits c (by simp [hsub c hc])
    have hord := ordered_insert (e := e) hordered
    generalize cs.takeWhile (fun c => decide (c.sequence < e.sequence)) ++
      e :: cs.dropWhile (fun c => decide (c.sequence < e.sequence)) = all at hperm hall hord
    have hne : (dropExcess limit maximumBytes all.reverse).reverse ≠ [] := by
      rw [List.reverse_ne_nil_iff]
      refine dropExcess_ne_nil hlimit ?_ fun c hc => hall c (List.mem_reverse.mp hc)
      rw [List.reverse_ne_nil_iff]
      exact List.ne_nil_of_mem (hperm.mem_iff.mpr (List.mem_cons_self ..))
    -- What is kept starts with the first of all.
    obtain ⟨c, kept, hkept⟩ := List.exists_cons_of_ne_nil hne
    obtain ⟨rest, hrest⟩ := trimmed_initial limit maximumBytes all
    rw [hkept] at hrest ⊢
    rw [List.cons_append] at hrest
    have hfirst : ∀ x ∈ all, c.sequence ≤ x.sequence := by
      rw [← hrest, Ordered, List.pairwise_cons] at hord
      intro x hx
      rw [← hrest, List.mem_cons] at hx
      rcases hx with rfl | hx
      · exact Nat.le_refl _
      · exact hord.1 x hx
    refine ⟨c, by simp, fun x hx => ?_⟩
    rcases List.mem_append.mp hx with hx | hx
    · obtain ⟨d, hd, hmin⟩ := hlead (List.ne_nil_of_mem hx)
      exact (hfirst d (hperm.mem_iff.mpr (by simp [hd]))).trans (hmin x hx)
    · rw [List.mem_singleton.mp hx]
      exact hfirst e (hperm.mem_iff.mpr (by simp))

/-- **The smallest visible sequence is a candidate.** -/
theorem candidatesOf_min {limit maximumBytes : ℕ} (hlimit : 0 < limit) {es : List Entry} (hne : es ≠ [])
    (hfits : ∀ e ∈ es, e.payload.length ≤ maximumBytes) : Leads (candidatesOf limit maximumBytes es) es := by
  induction es using List.reverseRecOn with
  | nil => exact absurd rfl hne
  | append_singleton es e ih =>
    rw [candidatesOf, List.foldl_append]
    refine leads_insertCandidate hlimit (ordered_candidatesOf limit maximumBytes es)
      (fun c hc => mem_candidatesOf hc) (fun hes => ih hes fun c hc => hfits c (by simp [hc]))
      fun c hc => hfits c ?_
    rcases List.mem_cons.mp hc with rfl | hc
    · simp
    · simp [hc]

theorem payloadBytes_perm {cs ds : List Entry} (h : cs.Perm ds) : payloadBytes cs = payloadBytes ds :=
  (h.map _).sum_nat

/-- **All visible entries are candidates**, if they fit on the page. -/
theorem candidatesOf_all {limit maximumBytes : ℕ} {es : List Entry} (hlength : es.length ≤ limit)
    (hbytes : payloadBytes es ≤ maximumBytes) : (candidatesOf limit maximumBytes es).Perm es := by
  induction es using List.reverseRecOn with
  | nil => exact List.Perm.refl _
  | append_singleton es e ih =>
    have hbytes' : payloadBytes es ≤ maximumBytes := by
      simp [payloadBytes] at hbytes ⊢; omega
    rw [List.length_append, List.length_singleton] at hlength
    have hes := ih (by omega) hbytes'
    rw [candidatesOf, List.foldl_append, List.foldl_cons, List.foldl_nil, ← candidatesOf]
    unfold insertCandidate
    simp only
    have hperm := (takeWhile_append_insert_perm (fun c => decide (c.sequence < e.sequence)) e
      (candidatesOf limit maximumBytes es)).trans (List.Perm.cons e hes)
    have hperm' : (e :: es).Perm (es ++ [e]) := (List.perm_append_singleton e es).symm
    rw [if_neg (by have := hes.length_eq; omega), dropExcess_of_fits, List.reverse_reverse]
    · exact hperm.trans hperm'
    · rw [List.length_reverse, hperm.length_eq, List.length_cons]; omega
    · rw [payloadBytes_perm ((List.reverse_perm _).trans (hperm.trans hperm'))]; exact hbytes

/-! ### Pages -/

/-- The sequences of the entries that are candidates for the page. -/
def chosen (q : HistoryQuery) (es : List Entry) : List ℕ :=
  (candidatesOf q.pageLimit q.maximumPayloadBytes.toNat es).map Entry.sequence

/-- The last sequence a page may account for. -/
def maximumScanned (health : Health) (q : HistoryQuery) : ℕ := min health.newestSequence q.scanCeiling

theorem scanCeiling_eq (hsync : q.requireSyncable = true) :
    q.scanCeiling = min (q.afterSequence.toNat + 500) (2 ^ 64 - 1) := by
  unfold HistoryQuery.scanCeiling kSyncCoverageWindow
  split_ifs with h
  · omega
  · simp only [hsync, true_and] at h
    omega

theorem wants_iff (hsync : q.requireSyncable = true) (e : Entry) :
    q.wants e = true ↔ q.afterSequence.toNat < e.sequence ∧ e.sequence ≤ q.scanCeiling ∧
      e.syncable = true ∧ (q.fromUtcMs = 0 ∨ q.fromUtcMs ≤ e.start) ∧
      (q.toUtcMs = 0 ∨ e.start ≤ q.toUtcMs) := by
  simp only [HistoryQuery.wants, hsync, Bool.true_and, Bool.not_not, Bool.and_eq_true, Bool.not_eq_true',
    Bool.or_eq_false_iff, decide_eq_false_iff_not, not_le, not_lt, Bool.and_eq_false_iff,
    decide_not, Bool.not_eq_false', decide_eq_true_eq, gt_iff_lt, UInt64.not_lt]
  tauto

theorem observe_foldl (hsync : q.requireSyncable = true) (es : List Entry) :
    es.foldl (observe q) {} = {
      candidates := candidatesOf q.pageLimit q.maximumPayloadBytes.toNat es
      observed := es.map Entry.sequence
      eligible := es.length } := by
  induction es using List.reverseRecOn with
  | nil => rfl
  | append_singleton es e ih =>
    rw [List.foldl_append, ih]
    simp [observe, hsync, candidatesOf]

/-- The page of the entries a walk has seen. -/
def pageOf (health : Health) (q : HistoryQuery) (es : List Entry) : HistoryPage :=
  finishPage health q {
    candidates := candidatesOf q.pageLimit q.maximumPayloadBytes.toNat es
    observed := es.map Entry.sequence
    eligible := es.length }

/-- **A page is delivered** when its history is not expired, the walk can read what it sees and each
wanted entry fits on a page. -/
theorem readPage_ok_iff (hsync : q.requireSyncable = true) (page : HistoryPage) :
    readPage j card faults health q = page ∧ page.ok = true ↔
      historyExpired health q = false ∧ ∃ es, visibleEntries j card faults q = some es ∧
        (∀ e ∈ es, e.payload.length ≤ q.maximumPayloadBytes.toNat) ∧ page = pageOf health q es := by
  have hwalk := foldlM_eq_ok_iff (@scanSegment_eq_ok j card faults .readings q) (recordFiles card) {}
  have hseen : ∀ s', (recordFiles card).foldlM (scanSegment j card faults .readings q) {} = .ok s' ↔
      ∃ es, visibleEntries j card faults q = some es ∧
        (∀ e ∈ es, e.payload.length ≤ q.maximumPayloadBytes.toNat) ∧ s' = es.foldl (observe q) {} := by
    intro s'
    simp only [hwalk, processEntries_eq_ok, visibleEntries, Option.map_eq_some_iff]
    constructor
    · rintro ⟨es, h1, h2, h3⟩; exact ⟨_, ⟨es, h1, rfl⟩, h2, h3⟩
    · rintro ⟨_, ⟨es, h1, rfl⟩, h2, h3⟩; exact ⟨es, h1, h2, h3⟩
  unfold readPage
  cases hexpired : historyExpired health q with
  | true =>
    rw [if_pos rfl]
    constructor
    · rintro ⟨rfl, h⟩; cases h
    · rintro ⟨h, -⟩; cases h
  | false =>
    rw [if_neg (by simp)]
    unfold readEnvelopeFiles
    cases hfold : (recordFiles card).foldlM (scanSegment j card faults .readings q) {} with
    | error e =>
      simp only
      constructor
      · rintro ⟨rfl, h⟩; cases h
      · rintro ⟨-, es, h1, h2, -⟩
        rw [(hseen _).mpr ⟨es, h1, h2, rfl⟩] at hfold
        cases hfold
    | ok s =>
      obtain ⟨es, h1, h2, rfl⟩ := (hseen s).mp hfold
      rw [observe_foldl hsync]
      simp only
      constructor
      · rintro ⟨rfl, -⟩; exact ⟨trivial, es, h1, h2, rfl⟩
      · rintro ⟨-, es', h1', -, rfl⟩
        rw [h1] at h1'; cases h1'
        exact ⟨rfl, rfl⟩

/-- **The page accounts for the sequences from the cursor to `covered`**: a sequence is sent or declared
unavailable, and no visible entry is declared unavailable. It ends where it wants to, or before a
visible entry that is not a candidate, or with 500 unavailable sequences. -/
structure Accounts (health : Health) (q : HistoryQuery) (es : List Entry) (page : HistoryPage)
    (covered : ℕ) : Prop where
  start : q.afterSequence.toNat ≤ covered
  bound : q.afterSequence.toNat < covered → covered ≤ desiredEnd (maximumScanned health q) (chosen q es)
  unavailable_iff : ∀ s, (∃ r ∈ page.unavailableSequenceRanges, r.Contains s) ↔
    q.afterSequence.toNat < s ∧ s ≤ covered ∧ s ∉ chosen q es
  sent : ∀ e ∈ es, e.sequence ≤ covered → e.sequence ∈ chosen q es
  nonempty_iff : (page.records ≠ [] ∨ page.unavailableSequenceRanges ≠ []) ↔
    q.afterSequence.toNat < covered
  last : q.afterSequence.toNat < covered →
    q.afterSequence.toNat < page.lastSequence ∧ page.lastSequence ≤ covered
  stop : q.afterSequence.toNat < maximumScanned health q →
    covered = desiredEnd (maximumScanned health q) (chosen q es) ∨
      (covered + 1 ∈ es.map Entry.sequence ∧ covered + 1 ∉ chosen q es) ∨
      (covered + 1 ∉ chosen q es ∧ 500 ≤ covered - q.afterSequence.toNat)

theorem pageLast_bounds {selected : List Entry} {ranges : List SequenceRange} {after covered : ℕ}
    (hselected : ∀ e ∈ selected, after < e.sequence ∧ e.sequence ≤ covered)
    (hranges : ∀ r ∈ ranges, after < r.endSequence ∧ r.endSequence ≤ covered)
    (hne : selected ≠ [] ∨ ranges ≠ []) :
    after < pageLast selected ranges ∧ pageLast selected ranges ≤ covered := by
  unfold pageLast
  have h1 : selected ≠ [] → ∃ e ∈ selected, selected.getLast? = some e := fun h =>
    ⟨_, List.getLast_mem h, List.getLast?_eq_some_getLast h⟩
  have h2 : ranges ≠ [] → ∃ r ∈ ranges, ranges.getLast? = some r := fun h =>
    ⟨_, List.getLast_mem h, List.getLast?_eq_some_getLast h⟩
  by_cases hs : selected = []
  · obtain ⟨r, hr, hlast⟩ := h2 (hne.resolve_left (by simp [hs]))
    have := hranges r hr
    simp only [hs, hlast, List.getLast?_nil, Option.map_none, Option.map_some, Option.getD_none,
      Option.getD_some]
    omega
  · obtain ⟨e, he, hlast⟩ := h1 hs
    have hbe := hselected e he
    by_cases hr : ranges = []
    · simp only [hr, hlast, List.getLast?_nil, Option.map_none, Option.map_some, Option.getD_none,
        Option.getD_some]
      omega
    · obtain ⟨r, hr, hlastr⟩ := h2 hr
      have hbr := hranges r hr
      simp only [hlast, hlastr, Option.map_some, Option.getD_some]
      omega

theorem pageOf_eq (health : Health) (hsync : q.requireSyncable = true) (es : List Entry) :
    let plan := deriveSyncCoverage q.afterSequence.toNat (maximumScanned health q) (chosen q es)
      (es.map Entry.sequence) 500
    let selected := (candidatesOf q.pageLimit q.maximumPayloadBytes.toNat es).filter
      fun e => decide (e.sequence ≤ plan.endSequence)
    (pageOf health q es).records = selected.map Entry.payload ∧
      (pageOf health q es).unavailableSequenceRanges = plan.unavailableSequenceRanges ∧
      (pageOf health q es).lastSequence = pageLast selected plan.unavailableSequenceRanges := by
  simp only [pageOf, finishPage, coverage, hsync, if_true]
  exact ⟨rfl, rfl, rfl⟩

theorem mem_chosen {es : List Entry} {s : ℕ} (h : s ∈ chosen q es) : ∃ e ∈ es, e.sequence = s := by
  obtain ⟨e, he, rfl⟩ := List.mem_map.mp h
  exact ⟨e, mem_candidatesOf he, rfl⟩

/-- **What a page accounts for.** -/
theorem accounts_pageOf (health : Health) (hsync : q.requireSyncable = true) {es : List Entry}
    (hes : ∀ e ∈ es, q.afterSequence.toNat < e.sequence) :
    ∃ covered, Accounts health q es (pageOf health q es) covered := by
  obtain ⟨hrecords, hranges, hlast⟩ := pageOf_eq health hsync es
  have hcandidates : ∀ e ∈ candidatesOf q.pageLimit q.maximumPayloadBytes.toNat es,
      q.afterSequence.toNat < e.sequence := fun e he => hes e (mem_candidatesOf he)
  by_cases hscan : q.afterSequence.toNat < maximumScanned health q
  · have hceiling := scanCeiling_eq (q := q) hsync
    obtain ⟨covered, h1, h2, hend, hiff, hle, hsent, hstop⟩ := deriveSyncCoverage_spec
      (es.map Entry.sequence) hscan (show 500 ≠ 0 by omega) (by simp only [maximumScanned] at hscan; omega) (by
        intro s hs
        obtain ⟨e, he, rfl⟩ := mem_chosen hs
        exact hes e he)
    generalize deriveSyncCoverage q.afterSequence.toNat (maximumScanned health q) (chosen q es)
      (es.map Entry.sequence) 500 = plan at *
    -- A candidate is on the page when it is covered.
    have hmem : ∀ e, e ∈ (candidatesOf q.pageLimit q.maximumPayloadBytes.toNat es).filter
        (fun e => decide (e.sequence ≤ plan.endSequence)) ↔
        e ∈ candidatesOf q.pageLimit q.maximumPayloadBytes.toNat es ∧ e.sequence ≤ covered := by
      intro e
      rw [List.mem_filter, decide_eq_true_eq, hend]
      refine and_congr_right fun he => ?_
      have := hcandidates e he
      split_ifs <;> omega
    have hcovered : ∀ e ∈ (candidatesOf q.pageLimit q.maximumPayloadBytes.toNat es).filter
        (fun e => decide (e.sequence ≤ plan.endSequence)),
        q.afterSequence.toNat < e.sequence ∧ e.sequence ≤ covered := fun e he =>
      ⟨hcandidates e ((hmem e).mp he).1, ((hmem e).mp he).2⟩
    have hends : ∀ r ∈ plan.unavailableSequenceRanges,
        q.afterSequence.toNat < r.endSequence ∧ r.endSequence ≤ covered := fun r hr => by
      have := (hiff r.endSequence).mp ⟨r, hr, hle r hr, Nat.le_refl _⟩
      exact ⟨this.1, this.2.1⟩
    have hnonempty : (candidatesOf q.pageLimit q.maximumPayloadBytes.toNat es).filter
        (fun e => decide (e.sequence ≤ plan.endSequence)) ≠ [] ∨ plan.unavailableSequenceRanges ≠ [] ↔
        q.afterSequence.toNat < covered := by
      constructor
      · rintro (h | h)
        · obtain ⟨e, he⟩ := List.exists_mem_of_ne_nil _ h
          have := hcovered e he
          omega
        · obtain ⟨r, hr⟩ := List.exists_mem_of_ne_nil _ h
          have := hends r hr
          omega
      · intro h
        by_cases hnext : q.afterSequence.toNat + 1 ∈ chosen q es
        · obtain ⟨e, he, heq⟩ := List.mem_map.mp hnext
          exact Or.inl (List.ne_nil_of_mem ((hmem e).mpr ⟨he, by omega⟩))
        · obtain ⟨r, hr, -⟩ := (hiff _).mpr ⟨Nat.lt_succ_self _, h, hnext⟩
          exact Or.inr (List.ne_nil_of_mem hr)
    refine ⟨covered, h1, fun _ => h2, fun s => by rw [hranges]; exact hiff s, fun e he hle =>
      hsent _ (hes e he) hle (List.mem_map_of_mem he), ?_, ?_, fun _ => hstop⟩
    · rw [hrecords, hranges, ne_eq, List.map_eq_nil_iff]
      exact hnonempty
    · intro h
      rw [hlast]
      exact pageLast_bounds hcovered hends (hnonempty.mpr h)
  · have hplan : deriveSyncCoverage q.afterSequence.toNat (maximumScanned health q) (chosen q es)
        (es.map Entry.sequence) 500 = {} := by
      unfold deriveSyncCoverage
      rw [if_pos (Or.inl (by omega))]
    simp only [hplan] at hrecords hranges hlast
    have hnone : (candidatesOf q.pageLimit q.maximumPayloadBytes.toNat es).filter
        (fun e => decide (e.sequence ≤ 0)) = [] := by
      rw [List.filter_eq_nil_iff]
      intro e he
      have := hcandidates e he
      simp only [decide_eq_true_eq]
      omega
    rw [hnone] at hrecords
    exact ⟨q.afterSequence.toNat, Nat.le_refl _, fun h => absurd h (Nat.lt_irrefl _),
      fun s => by simp [hranges]; omega, fun e he hle => absurd (hes e he) (by omega),
      by simp [hrecords, hranges], fun h => absurd h (Nat.lt_irrefl _), fun h => absurd h hscan⟩

end PowerMonitor.Storage.PageSpec
