import PowerMonitor.Lib.Delimited
import PowerMonitor.Security.RequestAuthenticator

/-! # The target a signature covers

The target of a request is split at its question mark, its query into items and each item into a decoded key and
value; the canonical target has the pairs encoded again and sorted.

* `percentDecode_percentEncode`: decoding undoes encoding, for all bytes.
* `splitCanonicalTarget_canonicalPathQuery`: the canonical target is split into the path and the sorted query.
* `signedText_identifies`: **the signed text identifies the request**. -/

namespace PowerMonitor.Security.CanonicalTarget

open PowerMonitor.Lib.Binary PowerMonitor.Lib.Delimited
open PowerMonitor.Security.Crypto PowerMonitor.Security.RequestAuthenticator

def percentNibble (value : UInt8) : UInt8 :=
  if 48 ≤ value && value ≤ 57 then value - 48
  else if 97 ≤ value && value ≤ 102 then value - 97 + 10
  else if 65 ≤ value && value ≤ 70 then value - 65 + 10
  else 0xFF

/-- A plus sign is a space; a percent sign needs two hexadecimal digits after it. -/
def percentDecodeQueryComponent : Bytes → Option Bytes
  | [] => some []
  | character :: rest =>
    if character = 43 then (percentDecodeQueryComponent rest).map (32 :: ·)
    else if character ≠ 37 then (percentDecodeQueryComponent rest).map (character :: ·)
    else
      match rest with
      | first :: second :: rest =>
        let high := percentNibble first
        let low := percentNibble second
        if high = 0xFF ∨ low = 0xFF then none
        else (percentDecodeQueryComponent rest).map ((high <<< 4 ||| low) :: ·)
      | _ => none

/-- The key and the value of an item; without an equals sign the value is empty. -/
def splitItem (item : Bytes) : Option (Bytes × Bytes) := do
  let (key, value) := cutAt 61 item
  return (← percentDecodeQueryComponent key, ← percentDecodeQueryComponent (value.getD []))

/-- The path of a target and its decoded query. Empty items are skipped, and so is an empty query: it has one item,
the empty one. -/
def splitCanonicalTarget (target : Bytes) : Option (Bytes × List (Bytes × Bytes)) :=
  if target.head? ≠ some 47 ∨ 35 ∈ target then none
  else
    let (path, query) := cutAt 63 target
    let items := ((query.getD []).splitOn 38).filter (· ≠ [])
    (items.mapM splitItem).map (path, ·)

def canonicalTarget (target : Bytes) : Option Bytes :=
  (splitCanonicalTarget target).map fun (path, query) => canonicalPathQuery path query

/-! ### The encoding -/

/-- Encoding one byte. -/
def encodeByte (c : UInt8) : Bytes :=
  if asciiUnreserved c then [c]
  else [37, hexDigit (ascii "0123456789ABCDEF") (c >>> 4), hexDigit (ascii "0123456789ABCDEF") (c &&& 0x0F)]

theorem percentEncode_cons (c : UInt8) (s : Bytes) : percentEncode (c :: s) = encodeByte c ++ percentEncode s := rfl

/-- The bytes that separate: newline, number sign, ampersand, equals sign, question mark. -/
def separators : Bytes := [10, 35, 38, 61, 63]

theorem unreserved_separators (c : UInt8) : asciiUnreserved c = true → c ∉ separators :=
  bytes_forall (p := fun c => asciiUnreserved c = true → c ∉ separators) (by decide +kernel) c

theorem hexDigit_separators (n : UInt8) : hexDigit (ascii "0123456789ABCDEF") n ∉ separators :=
  bytes_forall (p := fun n => hexDigit (ascii "0123456789ABCDEF") n ∉ separators) (by decide +kernel) n

theorem encodeByte_separators (c : UInt8) : ∀ b ∈ encodeByte c, b ∉ separators := by
  intro b hb
  unfold encodeByte at hb
  split at hb
  · next hunreserved =>
    obtain rfl := List.mem_singleton.mp hb
    exact unreserved_separators b hunreserved
  · have hpercent : (37 : UInt8) ∉ separators := by decide
    rcases List.mem_cons.mp hb with rfl | hdigit
    · exact hpercent
    · rcases List.mem_cons.mp hdigit with rfl | hlow
      · exact hexDigit_separators _
      · obtain rfl := List.mem_singleton.mp hlow
        exact hexDigit_separators _

theorem unreserved_plain (c : UInt8) : asciiUnreserved c = true → c ≠ 43 ∧ c ≠ 37 :=
  bytes_forall (p := fun c => asciiUnreserved c = true → c ≠ 43 ∧ c ≠ 37) (by decide +kernel) c

/-- The two digits of a byte give it back. -/
theorem nibbles (c : UInt8) :
    let high := percentNibble (hexDigit (ascii "0123456789ABCDEF") (c >>> 4))
    let low := percentNibble (hexDigit (ascii "0123456789ABCDEF") (c &&& 0x0F))
    high ≠ 0xFF ∧ low ≠ 0xFF ∧ high <<< 4 ||| low = c :=
  bytes_forall (p := fun c =>
    let high := percentNibble (hexDigit (ascii "0123456789ABCDEF") (c >>> 4))
    let low := percentNibble (hexDigit (ascii "0123456789ABCDEF") (c &&& 0x0F))
    high ≠ 0xFF ∧ low ≠ 0xFF ∧ high <<< 4 ||| low = c) (by decide +kernel) c

/-- **Decoding undoes encoding**, one byte at a time. -/
theorem percentDecode_encodeByte (c : UInt8) (rest : Bytes) :
    percentDecodeQueryComponent (encodeByte c ++ rest) = (percentDecodeQueryComponent rest).map (c :: ·) := by
  unfold encodeByte
  by_cases hc : asciiUnreserved c = true
  · obtain ⟨hplus, hpercent⟩ := unreserved_plain c hc
    rw [if_pos hc, List.singleton_append, percentDecodeQueryComponent.eq_def]
    dsimp only
    rw [if_neg hplus, if_pos hpercent]
  · obtain ⟨hhigh, hlow, hvalue⟩ := nibbles c
    rw [if_neg hc, percentDecodeQueryComponent.eq_def]
    dsimp only [List.cons_append, List.nil_append]
    rw [if_neg (by decide), if_neg (by decide), if_neg (not_or.mpr ⟨hhigh, hlow⟩), hvalue]

theorem percentDecode_percentEncode (s : Bytes) : percentDecodeQueryComponent (percentEncode s) = some s := by
  induction s with
  | nil => rfl
  | cons c s ih => rw [percentEncode_cons, percentDecode_encodeByte, ih]; rfl

theorem percentEncode_injective {s t : Bytes} (h : percentEncode s = percentEncode t) : s = t := by
  have hdecode := congrArg percentDecodeQueryComponent h
  rw [percentDecode_percentEncode, percentDecode_percentEncode] at hdecode
  exact Option.some.inj hdecode

theorem percentEncode_separators {s : Bytes} {b : UInt8} (hb : b ∈ separators) : b ∉ percentEncode s := fun h => by
  obtain ⟨c, -, hc⟩ := List.mem_flatMap.mp h
  exact encodeByte_separators c b hc hb

/-! ### The query -/

/-- One item of a canonical query. -/
def itemText (item : Bytes × Bytes) : Bytes := percentEncode item.1 ++ ascii "=" ++ percentEncode item.2

/-- The order of the canonical query: by the encoded pairs. -/
def itemLe (p q : Bytes × Bytes) : Bool :=
  pairLe (percentEncode p.1, percentEncode p.2) (percentEncode q.1, percentEncode q.2)

def sortedQuery (query : List (Bytes × Bytes)) : List (Bytes × Bytes) := query.insertionSort (itemLe · · = true)

instance : Std.Total (itemLe · · = true) where
  total p q := by
    unfold itemLe
    rw [pairLe_iff, pairLe_iff]
    exact le_total _ _

instance : IsTrans (Bytes × Bytes) (itemLe · · = true) where
  trans p q r hpq hqr := by
    unfold itemLe at hpq hqr ⊢
    rw [pairLe_iff] at hpq hqr ⊢
    exact le_trans hpq hqr

theorem sortedQuery_sorted (query : List (Bytes × Bytes)) : sortedQuery (sortedQuery query) = sortedQuery query :=
  (List.pairwise_insertionSort _ query).insertionSort_eq

theorem sortedQuery_perm (query : List (Bytes × Bytes)) : (sortedQuery query).Perm query := List.perm_insertionSort _ query

theorem sortedQuery_eq_nil {query : List (Bytes × Bytes)} : sortedQuery query = [] ↔ query = [] := by
  rw [← List.length_eq_zero_iff, (sortedQuery_perm query).length_eq, List.length_eq_zero_iff]

/-- The canonical target in terms of the sorted query. -/
theorem canonicalPathQuery_eq (path : Bytes) (query : List (Bytes × Bytes)) :
    canonicalPathQuery path query = if query = [] then path
      else path ++ 63 :: [38].intercalate ((sortedQuery query).map itemText) := by
  have hsort : (query.map fun item => (percentEncode item.1, percentEncode item.2)).insertionSort
      (fun p q => pairLe p q = true) = (sortedQuery query).map fun item => (percentEncode item.1, percentEncode item.2) :=
    (List.map_insertionSort (itemLe · · = true) (fun p q => pairLe p q = true) _ query fun _ _ _ _ => Iff.rfl).symm
  unfold canonicalPathQuery
  rw [hsort]
  simp only [List.map_eq_nil_iff, sortedQuery_eq_nil, List.map_map]
  by_cases hquery : query = []
  · rw [if_pos hquery, if_pos hquery]
  · rw [if_neg hquery, if_neg hquery, List.append_assoc]
    rfl

theorem splitItem_itemText (item : Bytes × Bytes) : splitItem (itemText item) = some item := by
  have hcut : cutAt 61 (itemText item) = (percentEncode item.1, some (percentEncode item.2)) := by
    have htext : itemText item = percentEncode item.1 ++ 61 :: percentEncode item.2 := by
      unfold itemText
      rw [List.append_assoc]
      rfl
    rw [htext, cutAt_append (percentEncode_separators (by decide))]
  simp only [splitItem, hcut, Option.getD_some, percentDecode_percentEncode]
  rfl

theorem itemText_separators {item : Bytes × Bytes} {b : UInt8} (hb : b ∈ separators) (hne : b ≠ 61) :
    b ∉ itemText item := by
  unfold itemText
  rw [List.mem_append, List.mem_append, not_or, not_or]
  refine ⟨⟨percentEncode_separators hb, fun h => hne ?_⟩, percentEncode_separators hb⟩
  simpa [ascii] using h

/-- The pairs read from what follows the question mark. -/
def readQuery (query : Option Bytes) : Option (List (Bytes × Bytes)) :=
  (((query.getD []).splitOn 38).filter (· ≠ [])).mapM splitItem

/-- **The items of a sorted query are read back**, in its order. -/
theorem readQuery_intercalate {items : List (Bytes × Bytes)} (h : items ≠ []) :
    readQuery (some ([38].intercalate (items.map itemText))) = some items := by
  have hsplit : ([38].intercalate (items.map itemText)).splitOn (38 : UInt8) = items.map itemText := by
    refine List.splitOn_intercalate 38 (fun l hl => ?_) (by rwa [ne_eq, List.map_eq_nil_iff])
    obtain ⟨item, -, rfl⟩ := List.mem_map.mp hl
    exact itemText_separators (by decide) (by decide)
  have hfilter : (items.map itemText).filter (fun text => decide (text ≠ [])) = items.map itemText := by
    rw [List.filter_eq_self]
    intro text htext
    obtain ⟨item, -, rfl⟩ := List.mem_map.mp htext
    simp [itemText, ascii]
  unfold readQuery
  rw [Option.getD_some, hsplit, hfilter]
  have hread : splitItem ∘ itemText = fun item => pure (id item) := funext splitItem_itemText
  rw [List.mapM_map, hread, List.mapM_pure, List.map_id]
  rfl

/-- The canonical target is cut into the path and a text from which the sorted query is read. -/
theorem cutAt_canonicalPathQuery {path : Bytes} (hpath : 63 ∉ path) (query : List (Bytes × Bytes)) :
    ∃ text, cutAt 63 (canonicalPathQuery path query) = (path, text) ∧ readQuery text = some (sortedQuery query) := by
  rw [canonicalPathQuery_eq]
  by_cases hquery : query = []
  · subst hquery
    exact ⟨none, cutAt_of_notMem hpath, rfl⟩
  · rw [if_neg hquery]
    exact ⟨_, cutAt_append hpath _, readQuery_intercalate fun h => hquery (sortedQuery_eq_nil.mp h)⟩

/-! ### The target -/

theorem splitCanonicalTarget_eq (target : Bytes) :
    splitCanonicalTarget target = if target.head? ≠ some 47 ∨ 35 ∈ target then none
      else (readQuery (cutAt 63 target).2).map ((cutAt 63 target).1, ·) := rfl

/-- The path of an accepted target starts with a slash and has no number sign or question mark. -/
theorem path_of_splitCanonicalTarget {target path : Bytes} {query : List (Bytes × Bytes)}
    (h : splitCanonicalTarget target = some (path, query)) : path.head? = some 47 ∧ 35 ∉ path ∧ 63 ∉ path := by
  rw [splitCanonicalTarget_eq] at h
  split at h
  · cases h
  · next hstart =>
    obtain ⟨hslash, hnumber⟩ := not_or.mp hstart
    obtain ⟨items, -, hitems⟩ := Option.map_eq_some_iff.mp h
    obtain ⟨rfl, -⟩ := Prod.mk.inj hitems
    refine ⟨?_, fun hmem => hnumber ((cutAt_fst_initial 63 target).subset hmem), notMem_cutAt_fst 63 target⟩
    -- the first byte is a slash, so the cut is after it
    cases target with
    | nil => simp at hslash
    | cons b target =>
      obtain rfl : b = 47 := by simpa using hslash
      simp [cutAt]

/-- The query adds no newline and no number sign. -/
theorem notMem_canonicalPathQuery {path : Bytes} {b : UInt8} (hb : b = 10 ∨ b = 35) (hpath : b ∉ path)
    (query : List (Bytes × Bytes)) : b ∉ canonicalPathQuery path query := by
  have hseparator : b ∈ separators ∧ b ≠ 61 ∧ b ≠ 63 ∧ b ≠ 38 := by rcases hb with rfl | rfl <;> decide
  obtain ⟨hmem, h61, h63, h38⟩ := hseparator
  rw [canonicalPathQuery_eq]
  split
  · exact hpath
  · rw [List.mem_append, List.mem_cons, not_or, not_or]
    refine ⟨hpath, h63, fun h => ?_⟩
    rcases mem_of_mem_intercalate h with h | ⟨text, htext, hb⟩
    · exact h38 h
    · obtain ⟨item, -, rfl⟩ := List.mem_map.mp htext
      exact itemText_separators hmem h61 hb

/-- **The canonical target is split into the path and the sorted query.** -/
theorem splitCanonicalTarget_canonicalPathQuery {path : Bytes} (hslash : path.head? = some 47) (hnumber : 35 ∉ path)
    (hquestion : 63 ∉ path) (query : List (Bytes × Bytes)) :
    splitCanonicalTarget (canonicalPathQuery path query) = some (path, sortedQuery query) := by
  obtain ⟨text, hcut, hread⟩ := cutAt_canonicalPathQuery hquestion query
  have hhead : (canonicalPathQuery path query).head? = some 47 := by
    rw [canonicalPathQuery_eq]
    split
    · exact hslash
    · rw [List.head?_append, hslash]; rfl
  rw [splitCanonicalTarget_eq, if_neg (not_or.mpr ⟨not_not.mpr hhead,
    notMem_canonicalPathQuery (by simp) hnumber query⟩), hcut]
  rw [hread]
  rfl

/-- **The canonical target is its own canonical target.** -/
theorem canonicalTarget_idem {target text : Bytes} (h : canonicalTarget target = some text) :
    canonicalTarget text = some text := by
  obtain ⟨⟨path, query⟩, hsplit, rfl⟩ := Option.map_eq_some_iff.mp h
  obtain ⟨hslash, hnumber, hquestion⟩ := path_of_splitCanonicalTarget hsplit
  unfold canonicalTarget
  dsimp only
  rw [splitCanonicalTarget_canonicalPathQuery hslash hnumber hquestion, Option.map_some, Option.some.injEq]
  dsimp only
  rw [canonicalPathQuery_eq, canonicalPathQuery_eq, sortedQuery_sorted]
  simp only [sortedQuery_eq_nil]

/-! ### The signed text -/

/-- The text the signature of a request covers. -/
def signedText (request : Request) : Bytes :=
  canonicalRequest request.method (canonicalPathQuery request.path request.query) request.headers.timestamp
    request.headers.nonce request.headers.contentSha256

/-- What the HTTP parser guarantees: no field has a newline, and the path no question mark. -/
structure Parsed (request : Request) : Prop where
  method : 10 ∉ request.method
  path : 10 ∉ request.path
  pathQuestion : 63 ∉ request.path
  timestamp : 10 ∉ request.headers.timestamp
  nonce : 10 ∉ request.headers.nonce
  contentSha256 : 10 ∉ request.headers.contentSha256

theorem upperByte_newline (c : UInt8) : upperByte c = 10 → c = 10 :=
  bytes_forall (p := fun c => upperByte c = 10 → c = 10) (by decide +kernel) c

theorem newline_notMem_upper {method : Bytes} (h : 10 ∉ method) : 10 ∉ method.map upperByte := fun hmem => by
  obtain ⟨c, hc, hupper⟩ := List.mem_map.mp hmem
  exact h (upperByte_newline c hupper ▸ hc)

theorem canonicalPathQuery_inj {path path' : Bytes} {query query' : List (Bytes × Bytes)} (hpath : 63 ∉ path)
    (hpath' : 63 ∉ path') (h : canonicalPathQuery path query = canonicalPathQuery path' query') :
    path = path' ∧ query.Perm query' := by
  obtain ⟨text, hcut, hread⟩ := cutAt_canonicalPathQuery hpath query
  obtain ⟨text', hcut', hread'⟩ := cutAt_canonicalPathQuery hpath' query'
  rw [h, hcut', Prod.mk.injEq] at hcut
  obtain ⟨rfl, rfl⟩ := hcut
  rw [hread, Option.some.injEq] at hread'
  exact ⟨rfl, (sortedQuery_perm query).symm.trans (hread' ▸ sortedQuery_perm query')⟩

/-- The fields, read from the signed text one newline after the other. -/
theorem signedText_inj {r r' : Request} (hr : Parsed r) (hr' : Parsed r') (h : signedText r = signedText r') :
    r.method.map upperByte = r'.method.map upperByte ∧ r.path = r'.path ∧ r.query.Perm r'.query ∧
      r.headers.timestamp = r'.headers.timestamp ∧ r.headers.nonce = r'.headers.nonce ∧
      r.headers.contentSha256 = r'.headers.contentSha256 := by
  have htext (r : Request) : signedText r = ascii "PM-HMAC-SHA256-V1\n" ++ (r.method.map upperByte ++ 10 ::
      (canonicalPathQuery r.path r.query ++ 10 :: (r.headers.timestamp ++ 10 ::
        (r.headers.nonce ++ 10 :: r.headers.contentSha256)))) := by
    unfold signedText canonicalRequest
    simp only [List.append_assoc]
    rfl
  rw [htext, htext, List.append_cancel_left_eq] at h
  obtain ⟨hmethod, h⟩ := append_cons_inj (newline_notMem_upper hr.method) (newline_notMem_upper hr'.method) h
  obtain ⟨hpathQuery, h⟩ := append_cons_inj (notMem_canonicalPathQuery (by simp) hr.path r.query)
    (notMem_canonicalPathQuery (by simp) hr'.path r'.query) h
  obtain ⟨htimestamp, h⟩ := append_cons_inj hr.timestamp hr'.timestamp h
  obtain ⟨hnonce, hhash⟩ := append_cons_inj hr.nonce hr'.nonce h
  obtain ⟨hpath, hquery⟩ := canonicalPathQuery_inj hr.pathQuestion hr'.pathQuestion hpathQuery
  exact ⟨hmethod, hpath, hquery, htimestamp, hnonce, hhash⟩

/-- **The signed text identifies the request**, up to the case of the method and the order of the query. The canonical
target is its own canonical target, and decoding undoes encoding. -/
theorem signedText_identifies :
    (∀ r r' : Request, Parsed r → Parsed r' → signedText r = signedText r' →
      r.method.map upperByte = r'.method.map upperByte ∧ r.path = r'.path ∧ r.query.Perm r'.query ∧
        r.headers.timestamp = r'.headers.timestamp ∧ r.headers.nonce = r'.headers.nonce ∧
        r.headers.contentSha256 = r'.headers.contentSha256) ∧
    (∀ target text, canonicalTarget target = some text → canonicalTarget text = some text) ∧
    ∀ s, percentDecodeQueryComponent (percentEncode s) = some s :=
  ⟨fun _ _ => signedText_inj, fun _ _ => canonicalTarget_idem, percentDecode_percentEncode⟩

/-- A request for the history, its query in this order. -/
def historyRequest (method : String) (query : List (Bytes × Bytes)) : Request where
  method := ascii method
  path := ascii "/api/v1/history"
  query
  body := []
  headers :=
    { protocol := protocolVersion, deviceId := ascii "d", timestamp := ascii "0", nonce := ascii "n",
      contentSha256 := ascii "h", signature := ascii "s" }

/-- Two requests that differ in the case of the method and in the order of a query with an empty key and a separator. -/
theorem signedText_identifies_history :
    let r := historyRequest "get" [(ascii "b", ascii "&="), ([], ascii "?")]
    let r' := historyRequest "GET" [([], ascii "?"), (ascii "b", ascii "&=")]
    r ≠ r' ∧ signedText r = signedText r' ∧ r.query.Perm r'.query ∧
      canonicalTarget (ascii "/a?b=%26%3D&=%3f&") = some (ascii "/a?=%3F&b=%26%3D") ∧
      canonicalTarget (ascii "/a?=%3F&b=%26%3D") = some (ascii "/a?=%3F&b=%26%3D") := by
  have hsame : signedText (historyRequest "get" [(ascii "b", ascii "&="), ([], ascii "?")]) =
      signedText (historyRequest "GET" [([], ascii "?"), (ascii "b", ascii "&=")]) := by decide +kernel
  have htarget : canonicalTarget (ascii "/a?b=%26%3D&=%3f&") = some (ascii "/a?=%3F&b=%26%3D") := by decide +kernel
  have hfirst : Parsed (historyRequest "get" [(ascii "b", ascii "&="), ([], ascii "?")]) :=
    ⟨by decide, by decide, by decide, by decide, by decide, by decide⟩
  have hsecond : Parsed (historyRequest "GET" [([], ascii "?"), (ascii "b", ascii "&=")]) :=
    ⟨by decide, by decide, by decide, by decide, by decide, by decide⟩
  exact ⟨by decide, hsame, (signedText_identifies.1 _ _ hfirst hsecond hsame).2.2.1, htarget,
    signedText_identifies.2.1 _ _ htarget⟩

end PowerMonitor.Security.CanonicalTarget
