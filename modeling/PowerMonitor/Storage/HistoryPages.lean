import PowerMonitor.Lib.Shortlist
import PowerMonitor.Storage.IndexSeek

/-! # Pages of history

A page of history or of events holds the first wanted records that fit on it, by their number and by the bytes of
their payloads. The next page is asked for after the last record of this one.

The candidates of a walk are a shortlist (`candidatesOf_eq`). A record that is dropped because the page has too many
bytes does not come back, but a smaller one of a higher sequence may still fit: then the page has a gap, and the next
one goes on after it.

* `page_complete_iff`: a page has no gap if and only if no record beyond it is left over beside it.
* `delivers_of_closed`: page after page, all wanted records come, each once, if no page has a gap. -/

namespace PowerMonitor.Storage.HistoryPages

open PowerMonitor.Lib.Binary PowerMonitor.Lib.Lines PowerMonitor.Lib.Json PowerMonitor.Lib.Walk
open PowerMonitor.Lib.Shortlist
open PowerMonitor.Storage.RecordFormat PowerMonitor.Storage.Reading PowerMonitor.Storage.Media
open PowerMonitor.Storage.Segment PowerMonitor.Storage.ReadPage PowerMonitor.Storage.PageSpec
open PowerMonitor.Storage.Intact PowerMonitor.Storage.IndexSeek PowerMonitor.Storage.Unavailable
open PowerMonitor.Storage.Layout

variable {j : JsonLibrary} {card : Card} {kind : SegmentKind} {health : Health} {q : HistoryQuery}
  {limit maximumBytes : ℕ}

/-! ### Candidates are a shortlist -/

/-- The bytes that a record takes on a page. -/
def payloadLength (e : Entry) : ℕ := e.payload.length

theorem dropExcess_eq (limit maximumBytes : ℕ) (cs : List Entry) :
    (dropExcess limit maximumBytes cs.reverse).reverse = leading payloadLength limit maximumBytes cs := by
  induction cs using List.reverseRecOn with
  | nil => cases limit <;> rfl
  | append_singleton cs e ih =>
    rw [List.reverse_append, List.reverse_singleton, List.singleton_append, dropExcess]
    have hfits : Fits payloadLength limit maximumBytes (cs ++ [e]) ↔
        ¬ (limit < (e :: cs.reverse).length ∨ maximumBytes < payloadBytes (e :: cs.reverse)) := by
      rw [fits_perm ((List.perm_append_singleton e cs).trans ((List.reverse_perm cs).symm.cons e)), not_or, not_lt, not_lt]
      rfl
    split
    · next hexcess =>
      rw [ih]
      -- what fits of all of them ends before the last one
      have hinitial := initial_of_not_fits (leading_initial payloadLength limit maximumBytes (cs ++ [e]))
        (fits_leading ..) fun h => hfits.mp h hexcess
      have hlonger : leading payloadLength limit maximumBytes cs <+: leading payloadLength limit maximumBytes (cs ++ [e]) :=
        initial_leading ((leading_initial ..).trans (List.prefix_append cs [e])) (fits_leading ..)
      exact hlonger.eq_of_length_le (initial_leading hinitial (fits_leading ..)).length_le
    · next hroom =>
      rw [leading_of_fits (hfits.mpr hroom), List.reverse_cons, List.reverse_reverse]

theorem insertCandidate_eq {e : Entry} {cs : List Entry} (h : Fits payloadLength limit maximumBytes cs) :
    insertCandidate limit maximumBytes e cs = leading payloadLength limit maximumBytes (place Entry.sequence e cs) := by
  have hplace : place Entry.sequence e cs = cs.takeWhile (fun c => decide (c.sequence < e.sequence)) ++
      e :: cs.dropWhile fun c => decide (c.sequence < e.sequence) := by
    rw [place, List.orderedInsert_eq_take_drop]
    simp only [not_le]
  unfold insertCandidate
  simp only
  rw [hplace]
  split
  · next hfull =>
    have hall := List.takeWhile_append_dropWhile (p := fun c : Entry => decide (c.sequence < e.sequence)) (l := cs)
    rw [hfull.2, List.append_nil] at hall
    rw [hfull.2, hall]
    have hmore : ¬ Fits payloadLength limit maximumBytes (cs ++ [e]) := by
      intro hfits
      have hlength := hfits.1
      rw [List.length_append, List.length_singleton] at hlength
      omega
    refine (initial_leading (List.prefix_append cs [e]) h).eq_of_length_le ?_
    exact (initial_of_not_fits (leading_initial ..) (fits_leading ..) hmore).length_le
  · exact dropExcess_eq limit maximumBytes _

/-- **The candidates of a walk** are the shortlist of its entries. -/
theorem candidatesOf_eq (limit maximumBytes : ℕ) (es : List Entry) :
    candidatesOf limit maximumBytes es = shortlist Entry.sequence payloadLength limit maximumBytes es := by
  induction es using List.reverseRecOn with
  | nil => rfl
  | append_singleton es e ih =>
    rw [candidatesOf, List.foldl_append, ← candidatesOf, ih, shortlist_append]
    exact insertCandidate_eq (fits_shortlist ..)

/-! ### Intact files -/

/-- **An intact file** of readings or events: its lines decode, in the order of their sequences; the index rows of a
file of readings point to them, and a sidecar that counts states bounds that hold. -/
structure IntactFile (j : JsonLibrary) (card : Card) (kind : SegmentKind) (path content : Bytes) (es : List Entry) :
    Prop where
  file : card.lookup path = some content
  size : content.length < 2 ^ 32
  decodes : contentEntries j kind content = some es
  increasing : Increasing es
  index : kind = .readings → ∀ index, card.lookup (pairedIndexPath path) = some index →
    RowsMatch 0 (lines content) es (indexRows index)
  sidecar : ∀ metadata, loadSegmentMetadata j card {} kind path = some metadata →
    ∀ e ∈ es, metadata.firstSequence ≤ e.sequence ∧ e.sequence ≤ metadata.lastSequence

variable {path content : Bytes} {es : List Entry}

/-- A reader sees every wanted entry. -/
theorem IntactFile.segmentEntries (h : IntactFile j card kind path content es) (q : HistoryQuery) :
    ∃ seen, PageSpec.segmentEntries j card {} kind q path = some seen ∧ seen.filter q.wants = es.filter q.wants := by
  cases kind with
  | readings => exact segmentEntries_of_intact ⟨h.file, h.size, h.decodes, h.increasing, h.index rfl⟩ h.sidecar
  | events =>
    unfold PageSpec.segmentEntries visitSegment
    cases hskip : (loadSegmentMetadata j card {} .events path).any (outsideBounds q) with
    | true =>
      obtain ⟨metadata, hmetadata, houtside⟩ := (Option.any_eq_true ..).mp hskip
      refine ⟨[], rfl, (filter_wants_eq_nil fun e he hw => ?_).symm⟩
      have hbounds := h.sidecar metadata hmetadata e he
      simp only [outsideBounds, Bool.or_eq_true, decide_eq_true_eq] at houtside
      omega
    | false =>
      have hopen : openFile card {} .scan path = some content := by simp only [openFile, if_true, h.file]
      rw [if_neg Bool.false_ne_true, hopen]
      exact ⟨es, h.decodes, rfl⟩

/-- The wanted records of the files, in the order of a walk. -/
def eligible (held : Bytes → List Entry) (paths : List Bytes) (q : HistoryQuery) : List Entry :=
  (paths.flatMap held).filter q.wants

variable {held : Bytes → List Entry} {paths : List Bytes}

theorem gather_intact (h : ∀ path ∈ paths, ∃ content, IntactFile j card kind path content (held path)) (q : HistoryQuery) :
    ∃ seen, gather (PageSpec.segmentEntries j card {} kind q) paths = some seen ∧
      seen.filter q.wants = eligible held paths q := by
  obtain ⟨seen, all, hseen, hall, hfilter⟩ : ∃ seen all, gather (PageSpec.segmentEntries j card {} kind q) paths = some seen ∧
      gather (fun path => some (held path)) paths = some all ∧ seen.filter q.wants = all.filter q.wants := by
    refine gather_filter fun path hpath => ?_
    obtain ⟨content, hcontent⟩ := h path hpath
    obtain ⟨seen, hseen, hfilter⟩ := hcontent.segmentEntries q
    exact ⟨seen, _, hseen, rfl, hfilter⟩
  refine ⟨seen, hseen, ?_⟩
  have hgather : ∀ paths : List Bytes, gather (fun path => some (held path)) paths = some (paths.flatMap held) := by
    intro paths
    induction paths with
    | nil => rfl
    | cons path paths ih => exact gather_cons_eq_some.mpr ⟨_, _, rfl, ih, List.flatMap_cons⟩
  rw [hgather, Option.some.injEq] at hall
  rw [hfilter, ← hall]
  rfl

/-! ### What is on a page -/

/-- The page of the wanted records of a query without `require_syncable`. -/
def historyPage (q : HistoryQuery) (wanted : List Entry) : HistoryPage :=
  let selected := shortlist Entry.sequence payloadLength q.pageLimit q.maximumPayloadBytes.toNat wanted
  { ok := true
    firstSequence := pageFirst selected []
    lastSequence := pageLast selected []
    hasMore := decide (selected.length < wanted.length)
    nextAfterSequence := pageLast selected []
    records := selected.map Entry.payload }

theorem observe_plain (hsync : q.requireSyncable = false) (es : List Entry) : es.foldl (observe q) {} =
    { candidates := candidatesOf q.pageLimit q.maximumPayloadBytes.toNat es, eligible := es.length } := by
  induction es using List.reverseRecOn with
  | nil => rfl
  | append_singleton es e ih =>
    rw [List.foldl_append, ih]
    simp [observe, hsync, candidatesOf]

/-- **A page is delivered** if every wanted record fits on one, with the shortlist of them. -/
theorem readEnvelopeFiles_eq (h : ∀ path ∈ paths, ∃ content, IntactFile j card kind path content (held path))
    (hsync : q.requireSyncable = false) :
    ((readEnvelopeFiles j card {} health paths q kind).ok ↔
      ∀ e ∈ eligible held paths q, e.payload.length ≤ q.maximumPayloadBytes.toNat) ∧
    ((readEnvelopeFiles j card {} health paths q kind).ok →
      readEnvelopeFiles j card {} health paths q kind = historyPage q (eligible held paths q)) := by
  obtain ⟨seen, hseen, hfilter⟩ := gather_intact h q
  have hwalk (scan : Scan) : paths.foldlM (scanSegment j card {} kind q) {} = .ok scan ↔
      (∀ e ∈ eligible held paths q, e.payload.length ≤ q.maximumPayloadBytes.toNat) ∧
        scan = (eligible held paths q).foldl (observe q) {} := by
    simp only [foldlM_eq_ok_iff (@scanSegment_eq_ok j card {} kind q), processEntries_eq_ok, hseen, ← hfilter,
      Option.some.injEq, exists_eq_left']
  unfold readEnvelopeFiles
  cases hscan : paths.foldlM (scanSegment j card {} kind q) {} with
  | error e =>
    refine ⟨⟨fun hok => (nomatch hok), fun hfits => ?_⟩, fun hok => nomatch hok⟩
    rw [(hwalk _).mpr ⟨hfits, rfl⟩] at hscan
    cases hscan
  | ok scan =>
    obtain ⟨hfits, rfl⟩ := (hwalk scan).mp hscan
    refine ⟨⟨fun _ => hfits, fun _ => rfl⟩, fun _ => ?_⟩
    rw [observe_plain hsync, candidatesOf_eq]
    simp only [finishPage, coverage, hsync, Bool.false_eq_true, if_false]
    rfl

/-! ### Pages without a gap -/

/-- The record of a payload, as a reader decodes it. -/
def payloadEntry (j : JsonLibrary) (kind : SegmentKind) (payload : Bytes) : Option Entry :=
  (decodeLine j kind (encodeEnvelope payload)).toOption

/-- The records of a page. -/
def pageEntries (j : JsonLibrary) (kind : SegmentKind) (page : HistoryPage) : List Entry :=
  page.records.filterMap (payloadEntry j kind)

/-- **A page without a gap:** its records are in strictly increasing order, and they are the wanted records up to
`next_after_sequence`, each once. -/
structure Gapless (j : JsonLibrary) (kind : SegmentKind) (page : HistoryPage) (wanted : List Entry) : Prop where
  increasing : Increasing (pageEntries j kind page)
  all : (pageEntries j kind page).Perm (wanted.filter fun e => e.sequence ≤ page.nextAfterSequence)

theorem payloadEntry_of_decodeLine {line : Bytes} {e : Entry} (h : decodeLine j kind line = .ok e) :
    payloadEntry j kind e.payload = some e := by
  unfold decodeLine at h
  split at h
  · cases h
  · next payload _ _ =>
    split at h
    · cases h
    · next document hdocument =>
      cases h
      unfold payloadEntry decodeLine
      rw [decodeEnvelope_encodeEnvelope]
      simp only [hdocument]
      rfl

theorem decoded_of_contentEntries (h : contentEntries j kind content = some es) :
    ∀ e ∈ es, payloadEntry j kind e.payload = some e ∧ e.sequence < 2 ^ 64 := by
  intro e he
  unfold contentEntries at h
  split_ifs at h
  obtain ⟨line, -, first, hfirst, hmem⟩ := (mem_of_gather h e).mp he
  obtain ⟨-, e', hdecode, rfl⟩ := lineEntries_eq_some.mp hfirst
  obtain rfl := List.mem_singleton.mp hmem
  exact ⟨payloadEntry_of_decodeLine hdecode, decodeLine_sequence_lt hdecode⟩

theorem decoded_of_intact (h : ∀ path ∈ paths, ∃ content, IntactFile j card kind path content (held path))
    (q : HistoryQuery) : ∀ e ∈ eligible held paths q, payloadEntry j kind e.payload = some e ∧
      q.afterSequence.toNat < e.sequence ∧ e.sequence < 2 ^ 64 := by
  intro e he
  obtain ⟨hmem, hwants⟩ := List.mem_filter.mp he
  obtain ⟨path, hpath, hheld⟩ := List.mem_flatMap.mp hmem
  obtain ⟨content, hcontent⟩ := h path hpath
  obtain ⟨hpayload, hlt⟩ := decoded_of_contentEntries hcontent.decodes e hheld
  exact ⟨hpayload, (wants_bounds hwants).1, hlt⟩

/-- Decoding gives the records back. -/
theorem filterMap_payloadEntry {cs : List Entry} (h : ∀ e ∈ cs, payloadEntry j kind e.payload = some e) :
    (cs.map Entry.payload).filterMap (payloadEntry j kind) = cs := by
  induction cs with
  | nil => rfl
  | cons c cs ih =>
    rw [List.forall_mem_cons] at h
    rw [List.map_cons, List.filterMap_cons, h.1, ih h.2]

/-- A record comes up to the last one of a page. -/
theorem within_iff_le_pageLast {cs : List Entry} (hordered : cs.Pairwise fun a b => a.sequence ≤ b.sequence) {e : Entry}
    (he : 0 < e.sequence) : within Entry.sequence cs e = true ↔ e.sequence ≤ pageLast cs [] := by
  unfold within pageLast
  rw [List.any_eq_true]
  induction cs using List.reverseRecOn with
  | nil =>
    constructor
    · rintro ⟨c, hc, -⟩
      cases hc
    · intro hle
      exact absurd he (Nat.not_lt.mpr hle)
  | append_singleton cs c _ =>
    simp only [List.getLast?_concat, Option.map_some, Option.getD_some, List.getLast?_nil, Option.map_none,
      Option.getD_none, Nat.max_zero, decide_eq_true_eq]
    obtain ⟨-, -, hlast⟩ := List.pairwise_append.mp hordered
    constructor
    · rintro ⟨d, hd, hle⟩
      obtain hd | hd := List.mem_append.mp hd
      · exact hle.trans (hlast d hd c (List.mem_singleton_self c))
      · rwa [List.mem_singleton.mp hd] at hle
    · intro hle
      exact ⟨c, List.mem_append_right cs (List.mem_singleton_self c), hle⟩

theorem pageEntries_historyPage {wanted : List Entry} (h : ∀ e ∈ wanted, payloadEntry j kind e.payload = some e) :
    pageEntries j kind (historyPage q wanted) =
      shortlist Entry.sequence payloadLength q.pageLimit q.maximumPayloadBytes.toNat wanted :=
  filterMap_payloadEntry fun e he =>
    h e ((inOrder_perm _ _).mem_iff.mp ((shortlist_sublist _ _ _ _ wanted).subset he))

/-- **A page has no gap** if and only if nothing is left over beside it. -/
theorem gapless_iff {wanted : List Entry} (h : ∀ e ∈ wanted, payloadEntry j kind e.payload = some e ∧ 0 < e.sequence) :
    Gapless j kind (historyPage q wanted) wanted ↔
      Closed Entry.sequence payloadLength q.pageLimit q.maximumPayloadBytes.toNat wanted := by
  have hentries : pageEntries j kind (historyPage q wanted) = _ := pageEntries_historyPage fun e he => (h e he).1
  have hordered := (inOrder_pairwise Entry.sequence wanted).sublist
    (shortlist_sublist Entry.sequence payloadLength q.pageLimit q.maximumPayloadBytes.toNat wanted)
  have hfilter : wanted.filter (fun e => e.sequence ≤ (historyPage q wanted).nextAfterSequence) = wanted.filter
      (within Entry.sequence (shortlist Entry.sequence payloadLength q.pageLimit q.maximumPayloadBytes.toNat wanted)) := by
    refine List.filter_congr fun e he => ?_
    rw [Bool.eq_iff_iff, within_iff_le_pageLast hordered (h e he).2, decide_eq_true_eq]
    rfl
  rw [← complete_iff]
  constructor
  · rintro ⟨hincreasing, hall⟩
    rw [hentries] at hincreasing hall
    exact ⟨hincreasing, hfilter ▸ hall⟩
  · rintro ⟨hincreasing, hall⟩
    refine ⟨?_, ?_⟩
    · rw [hentries]
      exact hincreasing
    · rw [hentries, hfilter]
      exact hall

theorem page_complete_iff (h : ∀ path ∈ paths, ∃ content, IntactFile j card kind path content (held path))
    (hsync : q.requireSyncable = false) (hok : (readEnvelopeFiles j card {} health paths q kind).ok) :
    Gapless j kind (readEnvelopeFiles j card {} health paths q kind) (eligible held paths q) ↔
      Closed Entry.sequence payloadLength q.pageLimit q.maximumPayloadBytes.toNat (eligible held paths q) := by
  rw [(readEnvelopeFiles_eq h hsync).2 hok]
  refine gapless_iff fun e he => ?_
  obtain ⟨hpayload, hafter, -⟩ := decoded_of_intact h q e he
  exact ⟨hpayload, Nat.zero_lt_of_lt hafter⟩

/-! ### Page after page -/

/-- The query for the next page. -/
def nextQuery (page : HistoryQuery → HistoryPage) (q : HistoryQuery) : HistoryQuery :=
  { q with afterSequence := UInt64.ofNat (page q).nextAfterSequence }

/-- The records of all pages, asked for one after the other until there are no more. -/
inductive Delivers (page : HistoryQuery → HistoryPage) : HistoryQuery → List Bytes → Prop
  | last {q : HistoryQuery} (hok : (page q).ok) (hmore : (page q).hasMore = false) : Delivers page q (page q).records
  | more {q : HistoryQuery} {rest : List Bytes} (hok : (page q).ok) (hmore : (page q).hasMore)
      (hrest : Delivers page (nextQuery page q) rest) : Delivers page q ((page q).records ++ rest)

/-- A query for a page after another one. -/
def AsksNext (page : HistoryQuery → HistoryPage) (q q' : HistoryQuery) : Prop :=
  (page q).hasMore ∧ q' = nextQuery page q

theorem wants_after {after : UInt64} (hsync : q.requireSyncable = false) (hle : q.afterSequence ≤ after) (e : Entry) :
    ({ q with afterSequence := after } : HistoryQuery).wants e = (q.wants e && decide (after.toNat < e.sequence)) := by
  have hle : q.afterSequence.toNat ≤ after.toNat := hle
  rw [Bool.eq_iff_iff]
  simp only [HistoryQuery.wants, HistoryQuery.scanCeiling, hsync, Bool.false_eq_true, false_and, if_false,
    Bool.and_eq_true, Bool.not_eq_true', Bool.or_eq_false_iff, decide_eq_false_iff_not, decide_eq_true_eq, not_le,
    Bool.false_and, and_true]
  constructor
  · rintro ⟨⟨⟨h₁, h₂⟩, h₃⟩, h₄⟩
    exact ⟨⟨⟨⟨hle.trans_lt h₁, h₂⟩, h₃⟩, h₄⟩, h₁⟩
  · rintro ⟨⟨⟨⟨-, h₂⟩, h₃⟩, h₄⟩, h₁⟩
    exact ⟨⟨⟨h₁, h₂⟩, h₃⟩, h₄⟩

theorem eligible_after {after : UInt64} (hsync : q.requireSyncable = false) (hle : q.afterSequence ≤ after) :
    eligible held paths { q with afterSequence := after } =
      (eligible held paths q).filter fun e => !decide (e.sequence ≤ after.toNat) := by
  unfold eligible
  rw [List.filter_filter]
  refine List.filter_congr fun e _ => ?_
  rw [wants_after hsync hle, Bool.and_comm, ← decide_not, decide_eq_decide.mpr Nat.not_le]

theorem pageLast_mem {cs : List Entry} (h : cs ≠ []) : ∃ c ∈ cs, pageLast cs [] = c.sequence := by
  refine ⟨cs.getLast h, List.getLast_mem h, ?_⟩
  unfold pageLast
  rw [List.getLast?_eq_some_getLast h]
  exact Nat.max_zero _

/-- There is a record on a page, if any is wanted. -/
theorem shortlist_ne_nil {wanted : List Entry} (hlimit : 0 < limit) (hne : wanted ≠ [])
    (hfits : ∀ e ∈ wanted, e.payload.length ≤ maximumBytes) :
    shortlist Entry.sequence payloadLength limit maximumBytes wanted ≠ [] := by
  obtain ⟨c, hc, -⟩ := candidatesOf_min hlimit hne hfits
  rw [candidatesOf_eq] at hc
  exact List.ne_nil_of_mem hc

/-- **Page after page, all wanted records come**, in order and each once, if no page has a gap. -/
theorem delivers_of_closed (h : ∀ path ∈ paths, ∃ content, IntactFile j card kind path content (held path))
    (hsync : q.requireSyncable = false) (hlimit : 0 < q.pageLimit)
    (hok : (readEnvelopeFiles j card {} health paths q kind).ok)
    (hclosed : ∀ q', Relation.ReflTransGen (AsksNext (readEnvelopeFiles j card {} health paths · kind)) q q' →
      Closed Entry.sequence payloadLength q'.pageLimit q'.maximumPayloadBytes.toNat (eligible held paths q')) :
    ∃ delivered, Delivers (readEnvelopeFiles j card {} health paths · kind) q delivered ∧
      Increasing (delivered.filterMap (payloadEntry j kind)) ∧
      (delivered.filterMap (payloadEntry j kind)).Perm (eligible held paths q) := by
  generalize hcount : (eligible held paths q).length = n
  induction n using Nat.strong_induction_on generalizing q with
  | _ n ih =>
  obtain ⟨hfits, hpage⟩ := @readEnvelopeFiles_eq j card kind health q held paths h hsync
  have hfits := hfits.mp hok
  have hpage := hpage hok
  have hdecoded := decoded_of_intact h q
  obtain ⟨hincreasing, hall⟩ := (page_complete_iff h hsync hok).mpr (hclosed q .refl)
  cases hmore : (readEnvelopeFiles j card {} health paths q kind).hasMore with
  | false =>
    refine ⟨_, .last hok hmore, hincreasing, hall.trans (.of_eq ?_)⟩
    -- as many are on the page as are wanted
    refine List.filter_sublist.eq_of_length_le ?_
    rw [← hall.length_eq, hpage, pageEntries_historyPage fun e he => (hdecoded e he).1]
    rw [hpage] at hmore
    exact Nat.not_lt.mp (of_decide_eq_false hmore)
  | true =>
    obtain ⟨c, hc, hlast⟩ : ∃ c ∈ eligible held paths q,
        (readEnvelopeFiles j card {} health paths q kind).nextAfterSequence = c.sequence := by
      rw [hpage] at hmore ⊢
      have hne := shortlist_ne_nil hlimit (List.ne_nil_of_length_pos (Nat.zero_lt_of_lt (of_decide_eq_true hmore))) hfits
      obtain ⟨c, hc, hlast⟩ := pageLast_mem hne
      exact ⟨c, (inOrder_perm _ _).mem_iff.mp ((shortlist_sublist ..).subset hc), hlast⟩
    obtain ⟨-, hafter, hlt⟩ := hdecoded c hc
    have hnext : (UInt64.ofNat (readEnvelopeFiles j card {} health paths q kind).nextAfterSequence).toNat =
        (readEnvelopeFiles j card {} health paths q kind).nextAfterSequence := by
      rw [hlast]
      exact UInt64.toNat_ofNat_of_lt' hlt
    have hle : q.afterSequence ≤ UInt64.ofNat (readEnvelopeFiles j card {} health paths q kind).nextAfterSequence := by
      rw [UInt64.le_iff_toNat_le, hnext, hlast]
      exact hafter.le
    have hrest : eligible held paths (nextQuery (readEnvelopeFiles j card {} health paths · kind) q) =
        (eligible held paths q).filter fun e =>
          !decide (e.sequence ≤ (readEnvelopeFiles j card {} health paths q kind).nextAfterSequence) := by
      rw [nextQuery, eligible_after hsync hle, hnext]
    have hfewer : (eligible held paths (nextQuery (readEnvelopeFiles j card {} health paths · kind) q)).length < n := by
      rw [hrest, ← hcount, List.length_filter_lt_length_iff_exists]
      exact ⟨c, hc, by simp [hlast]⟩
    have hok' : (readEnvelopeFiles j card {} health paths
        (nextQuery (readEnvelopeFiles j card {} health paths · kind) q) kind).ok := by
      refine (readEnvelopeFiles_eq (q := nextQuery _ q) h hsync).1.mpr fun e he => ?_
      rw [hrest] at he
      exact hfits e (List.mem_filter.mp he).1
    obtain ⟨delivered, hdelivers, hincreasing', hall'⟩ :=
      ih _ hfewer (q := nextQuery _ q) hsync hlimit hok' (fun q' hq' => hclosed q' (.head ⟨hmore, rfl⟩ hq')) rfl
    rw [hrest] at hall'
    refine ⟨_, .more hok hmore hdelivers, ?_, ?_⟩
    · rw [List.filterMap_append]
      refine List.pairwise_append.mpr ⟨hincreasing, hincreasing', fun a ha b hb => ?_⟩
      have hbefore := (List.mem_filter.mp (hall.mem_iff.mp ha)).2
      have hlater := (List.mem_filter.mp (hall'.mem_iff.mp hb)).2
      rw [decide_eq_true_eq] at hbefore
      rw [Bool.not_eq_true', decide_eq_false_iff_not] at hlater
      omega
    · rw [List.filterMap_append]
      exact (hall.append hall').trans (List.filter_append_perm _ _)

/-- **When history pages skip nothing:** a page of intact files has no gap if and only if nothing is left over beside
its first records; and if that is so of every page that is asked for, one after the other, they deliver all the wanted
records, in order and each once. -/
theorem history_pages_iff (h : ∀ path ∈ paths, ∃ content, IntactFile j card kind path content (held path))
    (hsync : q.requireSyncable = false) (hok : (readEnvelopeFiles j card {} health paths q kind).ok) :
    (Gapless j kind (readEnvelopeFiles j card {} health paths q kind) (eligible held paths q) ↔
      Closed Entry.sequence payloadLength q.pageLimit q.maximumPayloadBytes.toNat (eligible held paths q)) ∧
    (0 < q.pageLimit →
      (∀ q', Relation.ReflTransGen (AsksNext (readEnvelopeFiles j card {} health paths · kind)) q q' →
        Closed Entry.sequence payloadLength q'.pageLimit q'.maximumPayloadBytes.toNat (eligible held paths q')) →
      ∃ delivered, Delivers (readEnvelopeFiles j card {} health paths · kind) q delivered ∧
        Increasing (delivered.filterMap (payloadEntry j kind)) ∧
        (delivered.filterMap (payloadEntry j kind)).Perm (eligible held paths q)) :=
  ⟨page_complete_iff h hsync hok, fun hlimit => delivers_of_closed h hsync hlimit hok⟩

/-- **A smaller record comes before one that does not fit.** -/
theorem shortlist_skips {a b c : Entry} (hlimit : 2 ≤ limit) (hab : a.sequence < b.sequence) (hac : a.sequence < c.sequence)
    (hb : maximumBytes < payloadLength a + payloadLength b) (hc : payloadLength a + payloadLength c ≤ maximumBytes) :
    shortlist Entry.sequence payloadLength limit maximumBytes [a, b, c] = [a, c] := by
  have hplace {e : Entry} (h : a.sequence < e.sequence) : place Entry.sequence e [a] = [a, e] :=
    place_append_of_lt [] fun x hx => by rwa [List.mem_singleton.mp hx]
  obtain ⟨limit, rfl⟩ := Nat.exists_eq_add_of_le' hlimit
  have ha : leading payloadLength (limit + 2) maximumBytes [a] = [a] := by
    rw [leading, if_pos (by omega), leading]
    simp
  have hone : leading payloadLength (limit + 2) maximumBytes [a, b] = [a] := by
    rw [leading, if_pos (by omega), leading, if_neg (by omega)]
  have htwo : leading payloadLength (limit + 2) maximumBytes [a, c] = [a, c] := by
    rw [leading, if_pos (by omega), leading, if_pos (by omega)]
    cases limit <;> rfl
  calc shortlist Entry.sequence payloadLength (limit + 2) maximumBytes [a, b, c]
      = leading payloadLength (limit + 2) maximumBytes (place Entry.sequence c
          (leading payloadLength (limit + 2) maximumBytes (place Entry.sequence b
            (leading payloadLength (limit + 2) maximumBytes [a])))) := rfl
    _ = [a, c] := by rw [ha, hplace hab, hone, hplace hac, htwo]

/-! ### Three readings -/

/-- Three readings of an hour; the second one takes two bytes more. -/
def threeReadings : List IntervalRecord :=
  [minuteReading 1 1700002800000, { minuteReading 2 1700002860000 with sampleCount := 100 },
    minuteReading 3 1700002920000]

def hourCard : Card := AList.insert dayFile (fileOf textJson threeReadings) ∅

def heldInHour (path : Bytes) : List Entry := if path = dayFile then threeReadings.map (entryOf textJson) else []

theorem length_threeReadings : threeReadings.map (fun r => (serializeRecord textJson r).length) = [758, 760, 758] := by
  decide +kernel

theorem lookup_hourCard_ne {path : Bytes} (hpath : path ≠ dayFile) : hourCard.lookup path = none := by
  rw [hourCard, AList.lookup_insert_ne hpath, AList.lookup_empty]

theorem length_envelopes : threeReadings.map (fun r => (recordEnvelope textJson r).length) = [773, 775, 773] := by
  have hlength := congrArg (List.map (· + 15)) length_threeReadings
  rw [List.map_map] at hlength
  simp only [recordEnvelope, length_encodeEnvelope]
  exact hlength

theorem increasing_threeReadings : Increasing (threeReadings.map (entryOf textJson)) := by
  unfold Increasing
  rw [List.pairwise_map]
  show threeReadings.Pairwise fun r r' => r.sequence.toNat < r'.sequence.toNat
  decide

theorem intact_hour : IntactFile textJson hourCard .readings dayFile (fileOf textJson threeReadings)
    (threeReadings.map (entryOf textJson)) where
  file := AList.lookup_insert _
  size := by
    rw [fileOf, List.length_flatten, List.map_map]
    show (threeReadings.map fun r => (recordEnvelope textJson r).length).sum < _
    rw [length_envelopes]
    decide
  decodes := by
    refine contentEntries_fileOf textJson_lawful fun r hr => ?_
    have hmem : (recordEnvelope textJson r).length ∈ [773, 775, 773] := by
      rw [← length_envelopes]
      exact List.mem_map_of_mem hr
    exact (by decide : ∀ n ∈ [773, 775, 773], n ≤ maximumLine) _ hmem
  increasing := increasing_threeReadings
  index := fun _ index hindex => by
    rw [lookup_hourCard_ne (Frames.index_ne dayFile_record).1] at hindex
    cases hindex
  sidecar := fun metadata hmetadata => by
    unfold loadSegmentMetadata openFile at hmetadata
    simp only [if_true] at hmetadata
    rw [lookup_hourCard_ne (Frames.metadata_ne dayFile_record).1] at hmetadata
    cases hmetadata

theorem intact_inHour : ∀ path ∈ [dayFile], ∃ content, IntactFile textJson hourCard .readings path content (heldInHour path) := by
  intro path hpath
  obtain rfl := List.mem_singleton.mp hpath
  rw [heldInHour, if_pos rfl]
  exact ⟨_, intact_hour⟩

/-- A query for the records after one, in pages of so many bytes. -/
def hourQuery (maximumPayloadBytes : UInt32) (after : UInt64) : HistoryQuery :=
  { afterSequence := after, maximumPayloadBytes }

theorem eligible_hour (maximumPayloadBytes : UInt32) :
    eligible heldInHour [dayFile] (hourQuery maximumPayloadBytes 0) = threeReadings.map (entryOf textJson) := by
  have hwants : ∀ e ∈ threeReadings.map (entryOf textJson), (hourQuery maximumPayloadBytes 0).wants e = true := by
    intro e he
    obtain ⟨r, hr, rfl⟩ := List.mem_map.mp he
    have hpositive : ¬ r.sequence.toNat ≤ 0 := Nat.not_le.mpr ((by decide : ∀ r ∈ threeReadings, 0 < r.sequence.toNat) r hr)
    have hlt := r.sequence.toNat_lt
    simp only [HistoryQuery.wants, HistoryQuery.scanCeiling, hourQuery, entryOf]
    simp only [UInt64.toNat_zero, hpositive, ne_eq, not_true_eq_false, decide_false, Bool.false_and, Bool.or_false,
      Bool.false_eq_true, false_and, if_false, Bool.not_false, Bool.and_true, Bool.false_or, Bool.not_eq_true',
      decide_eq_false_iff_not]
    omega
  rw [eligible, List.flatMap_singleton, heldInHour, if_pos rfl, List.filter_eq_self.mpr hwants]

theorem payloadLength_hour : (threeReadings.map (entryOf textJson)).map payloadLength = [758, 760, 758] := by
  rw [List.map_map]
  exact length_threeReadings

/-- Each reading fits on a page. -/
theorem ok_hour {maximumPayloadBytes : UInt32} (h : 760 ≤ maximumPayloadBytes.toNat) (after : UInt64) :
    (readEnvelopeFiles textJson hourCard {} {} [dayFile] (hourQuery maximumPayloadBytes after) .readings).ok := by
  refine (readEnvelopeFiles_eq intact_inHour rfl).1.mpr fun e he => ?_
  have hmem : e ∈ threeReadings.map (entryOf textJson) := by
    have hheld := (List.mem_filter.mp he).1
    rwa [List.flatMap_singleton, heldInHour, if_pos rfl] at hheld
  have hlength : payloadLength e ∈ [758, 760, 758] := by
    rw [← payloadLength_hour]
    exact List.mem_map_of_mem hmem
  exact ((by decide : ∀ n ∈ [758, 760, 758], n ≤ 760) _ hlength).trans h

/-- With room for all three, a page has no gap, and all are delivered. -/
theorem history_pages_iff_hour :
    Gapless textJson .readings (readEnvelopeFiles textJson hourCard {} {} [dayFile] (hourQuery 49152 0) .readings)
      (eligible heldInHour [dayFile] (hourQuery 49152 0)) ∧
    ∃ delivered, Delivers (readEnvelopeFiles textJson hourCard {} {} [dayFile] · .readings) (hourQuery 49152 0) delivered ∧
      Increasing (delivered.filterMap (payloadEntry textJson .readings)) ∧
      (delivered.filterMap (payloadEntry textJson .readings)).Perm (eligible heldInHour [dayFile] (hourQuery 49152 0)) := by
  have hall (after : UInt64) : Closed Entry.sequence payloadLength (hourQuery 49152 after).pageLimit
      (hourQuery 49152 after).maximumPayloadBytes.toNat (eligible heldInHour [dayFile] (hourQuery 49152 after)) := by
    have hafter : eligible heldInHour [dayFile] (hourQuery 49152 after) = _ := eligible_after (q := hourQuery 49152 0) rfl (UInt64.le_iff_toNat_le.mpr (Nat.zero_le _))
    rw [hafter, eligible_hour]
    refine closed_of_fits (increasing_threeReadings.sublist List.filter_sublist) (Fits.of_sublist ⟨?_, ?_⟩ List.filter_sublist)
    · show 3 ≤ 100
      decide
    · rw [payloadLength_hour]
      show 2276 ≤ 49152
      decide
  obtain ⟨hiff, hdelivers⟩ := history_pages_iff intact_inHour rfl (@ok_hour 49152 (by decide) 0)
  refine ⟨hiff.mpr (hall 0), hdelivers (by decide) fun q' hq' => ?_⟩
  obtain ⟨after, rfl⟩ : ∃ after, q' = hourQuery 49152 after := by
    induction hq' with
    | refl => exact ⟨0, rfl⟩
    | tail _ hnext ih =>
      obtain ⟨after, rfl⟩ := ih
      exact ⟨_, hnext.2⟩
  exact hall after

/-- The pages of 1516 bytes. -/
def hourPage (q : HistoryQuery) : HistoryPage := readEnvelopeFiles textJson hourCard {} {} [dayFile] q .readings

/-- **The second reading is never delivered** in pages of 1516 bytes: it does not fit beside the first one, and the third
one does. -/
theorem second_reading_skipped :
    (∀ path ∈ [dayFile], ∃ content, IntactFile textJson hourCard .readings path content (heldInHour path)) ∧
    (hourPage (hourQuery 1516 0)).ok ∧
    ¬ Gapless textJson .readings (hourPage (hourQuery 1516 0)) (eligible heldInHour [dayFile] (hourQuery 1516 0)) ∧
    Delivers hourPage (hourQuery 1516 0)
      [serializeRecord textJson (minuteReading 1 1700002800000), serializeRecord textJson (minuteReading 3 1700002920000)] := by
  have hok (after : UInt64) : (hourPage (hourQuery 1516 after)).ok := @ok_hour 1516 (by decide) after
  have hpage (after : UInt64) : hourPage (hourQuery 1516 after) =
      historyPage (hourQuery 1516 after) (eligible heldInHour [dayFile] (hourQuery 1516 after)) :=
    (readEnvelopeFiles_eq intact_inHour rfl).2 (hok after)
  obtain ⟨a, b, c, habc, ha, hb, hc⟩ : ∃ a b c, threeReadings.map (entryOf textJson) = [a, b, c] ∧
      a = entryOf textJson (minuteReading 1 1700002800000) ∧ b.sequence = 2 ∧
      c = entryOf textJson (minuteReading 3 1700002920000) := ⟨_, _, _, rfl, rfl, rfl, rfl⟩
  have ha' : a.sequence = 1 := by rw [ha]; rfl
  have hc' : c.sequence = 3 := by rw [hc]; rfl
  have hsizes := payloadLength_hour
  rw [habc] at hsizes
  simp only [List.map_cons, List.map_nil, List.cons.injEq, and_true] at hsizes
  have hwanted : eligible heldInHour [dayFile] (hourQuery 1516 0) = [a, b, c] := (eligible_hour 1516).trans habc
  have hnone : eligible heldInHour [dayFile] (hourQuery 1516 3) = [] := by
    rw [show hourQuery 1516 3 = { hourQuery 1516 0 with afterSequence := 3 } from rfl,
      eligible_after rfl (by decide), hwanted]
    simp [ha', hb, hc']
  have hshort : shortlist Entry.sequence payloadLength (hourQuery 1516 0).pageLimit
      (hourQuery 1516 0).maximumPayloadBytes.toNat [a, b, c] = [a, c] := by
    have hroom : (hourQuery 1516 0).maximumPayloadBytes.toNat = 1516 := rfl
    exact shortlist_skips (by decide) (by omega) (by omega) (by omega) (by omega)
  have hrecords : (hourPage (hourQuery 1516 0)).records = [a.payload, c.payload] := by
    rw [hpage, hwanted, historyPage, hshort, List.map_cons, List.map_singleton]
  have hafter : (hourPage (hourQuery 1516 0)).nextAfterSequence = 3 := by
    rw [hpage, hwanted, historyPage, hshort, ← hc']
    exact Nat.max_zero _
  refine ⟨intact_inHour, hok 0, ?_, ?_⟩
  · rintro ⟨-, hall⟩
    have hlength := hall.length_eq
    have hentries : pageEntries textJson .readings (hourPage (hourQuery 1516 0)) = [a, c] := by
      rw [hpage, hwanted, pageEntries_historyPage fun e he => ?_, hshort]
      exact (decoded_of_intact intact_inHour (hourQuery 1516 0) e (hwanted ▸ he)).1
    rw [hentries, hafter, hwanted] at hlength
    simp [ha', hb, hc'] at hlength
  · have hmore : (hourPage (hourQuery 1516 0)).hasMore := by
      rw [hpage, hwanted, historyPage, hshort]
      rfl
    have hmore' : (hourPage (hourQuery 1516 3)).hasMore = false := by
      rw [hpage, hnone]
      rfl
    have hrecords' : (hourPage (hourQuery 1516 3)).records = [] := by
      rw [hpage, hnone]
      rfl
    have hrest : Delivers hourPage (nextQuery hourPage (hourQuery 1516 0)) [] := by
      have hlast : Delivers hourPage (hourQuery 1516 3) (hourPage (hourQuery 1516 3)).records := .last (hok 3) hmore'
      rw [hrecords'] at hlast
      rw [nextQuery, hafter]
      exact hlast
    have hdelivers : Delivers hourPage (hourQuery 1516 0) ((hourPage (hourQuery 1516 0)).records ++ []) :=
      .more (hok 0) hmore hrest
    rw [List.append_nil, hrecords, ha, hc] at hdelivers
    exact hdelivers

end PowerMonitor.Storage.HistoryPages
