import PowerMonitor.Lib.Binary
import Mathlib.Algebra.Group.Nat.Even
import Mathlib.Data.List.Infix
import Mathlib.Data.List.Induction

/-! # The protocol marker of an image

The bytes of an image are compared with the marker as they come; after a mismatch the comparison starts again, with
the byte that differed as its first if it is the marker's first. The marker's third and fourth bytes, `pm-p`, are not
taken for its beginning again, so an occurrence directly after one more `pm-` is missed.

* `scanProtocol_append`: how the image is cut does not matter.
* `index_three_iff`: when the comparison stands behind `pm-`.
* `seen_iff`: when the marker is found. -/

namespace PowerMonitor.Ota.ProtocolMarker

open PowerMonitor.Lib.Binary

/-- `PM_PROTOCOL_VERSION`. -/
def marker : Bytes := ascii "pm-protocol/1.0.0"

structure Scan where
  protocolIndex : ℕ := 0
  protocolSeen : Bool := false
  deriving DecidableEq, Repr

/-- One byte of a chunk. -/
def Scan.byte (s : Scan) (byte : UInt8) : Scan :=
  if marker[s.protocolIndex]? = some byte then
    { protocolIndex := s.protocolIndex + 1, protocolSeen := s.protocolIndex + 1 = marker.length }
  else { s with protocolIndex := if marker[0]? = some byte then 1 else 0 }

/-- One chunk; nothing is read once the marker was seen. -/
def scanProtocol (s : Scan) : Bytes → Scan
  | [] => s
  | byte :: data => if s.protocolSeen then s else scanProtocol (s.byte byte) data

/-- The chunks of a download. -/
def scanChunks (chunks : List Bytes) : Scan := chunks.foldl scanProtocol {}

/-- How often `pm-` stands at the beginning of a text that is read backwards. -/
def repeats : Bytes → ℕ
  | 45 :: 109 :: 112 :: rest => repeats rest + 1
  | _ => 0

/-- How often `pm-` stands at the end of a text, without anything between. -/
def stutter (text : Bytes) : ℕ := repeats text.reverse

variable {s : Scan} {text pre : Bytes}

/-! ### Chunks -/

theorem scanProtocol_seen (h : s.protocolSeen = true) (data : Bytes) : scanProtocol s data = s := by
  cases data with
  | nil => rfl
  | cons byte data => exact if_pos h

/-- **How the image is cut does not matter.** -/
theorem scanProtocol_append (s : Scan) (a b : Bytes) :
    scanProtocol s (a ++ b) = scanProtocol (scanProtocol s a) b := by
  induction a generalizing s with
  | nil => rfl
  | cons byte a ih =>
    by_cases h : s.protocolSeen = true
    · rw [scanProtocol_seen h, scanProtocol_seen h, scanProtocol_seen h]
    · rw [List.cons_append, scanProtocol, scanProtocol, if_neg h, if_neg h]
      exact ih _

theorem scanChunks_eq (chunks : List Bytes) : scanChunks chunks = scanProtocol {} chunks.flatten := by
  unfold scanChunks
  generalize ({} : Scan) = s
  induction chunks generalizing s with
  | nil => rfl
  | cons chunk chunks ih => rw [List.foldl_cons, ih, List.flatten_cons, scanProtocol_append]

/-! ### What was compared last -/

/-- The comparison after a text. -/
def after (text : Bytes) : Scan := scanProtocol {} text

theorem after_append (a b : Bytes) : after (a ++ b) = scanProtocol (after a) b := scanProtocol_append _ _ _

theorem seen_append (h : (after text).protocolSeen = true) (more : Bytes) :
    (after (text ++ more)).protocolSeen = true := by
  rw [after_append, scanProtocol_seen h, h]

theorem after_snoc (h : (after text).protocolSeen = false) (b : UInt8) : after (text ++ [b]) = (after text).byte b := by
  rw [after_append, scanProtocol, if_neg (by simp [h]), scanProtocol]

/-- **While the marker is not seen, the text ends with the part that was compared.** -/
theorem compared (text : Bytes) (h : (after text).protocolSeen = false) :
    (after text).protocolIndex < marker.length ∧ marker.take (after text).protocolIndex <:+ text := by
  induction text using List.reverseRecOn with
  | nil => exact ⟨by decide, List.nil_suffix⟩
  | append_singleton text b ih =>
    have hbefore : (after text).protocolSeen = false := by
      by_contra hseen
      rw [seen_append (Bool.of_not_eq_false hseen)] at h
      cases h
    obtain ⟨hlt, init, hinit⟩ := ih hbefore
    rw [after_snoc hbefore] at h ⊢
    unfold Scan.byte at h ⊢
    split_ifs at h ⊢ with hmatch hfirst
    · simp only [decide_eq_false_iff_not] at h
      refine ⟨by simp only; omega, init, ?_⟩
      rw [List.take_add_one, hmatch, Option.toList_some, ← List.append_assoc, hinit]
    · refine ⟨(by decide : 1 < marker.length), text, ?_⟩
      have hp : marker.take 1 = [b] := by
        rw [List.take_add_one, hfirst]
        rfl
      rw [hp]
    · exact ⟨(by decide : 0 < marker.length), List.nil_suffix⟩

/-! ### The three bytes that come twice -/

theorem scan_dash : ∀ n < marker.length, scanProtocol ⟨n, false⟩ [112, 109, 45] = ⟨if n = 3 then 0 else 3, false⟩ := by
  decide

theorem scan_marker : ∀ n < marker.length, (scanProtocol ⟨n, false⟩ marker).protocolSeen = decide (n ≠ 3) := by
  decide

theorem after_eq (h : (after text).protocolSeen = false) : after text = ⟨(after text).protocolIndex, false⟩ := by
  rw [← h]

/-- **The comparison stands behind `pm-`** after an odd number of them. -/
theorem index_three_iff (text : Bytes) (h : (after text).protocolSeen = false) :
    (after text).protocolIndex = 3 ↔ ¬ Even (stutter text) := by
  generalize hback : text.reverse = back
  induction back using repeats.induct generalizing text with
  | case1 rest ih =>
    have htext : text = rest.reverse ++ [112, 109, 45] := by
      rw [← List.reverse_reverse text, hback]
      simp
    have hbefore : (after rest.reverse).protocolSeen = false := by
      by_contra hseen
      rw [htext, seen_append (Bool.of_not_eq_false hseen)] at h
      cases h
    have hrest := ih rest.reverse hbefore (List.reverse_reverse rest)
    have hstutter : stutter text = stutter rest.reverse + 1 := by
      rw [stutter, hback, stutter, List.reverse_reverse, repeats]
    rw [hstutter, Nat.even_add_one, not_not, htext, after_append, after_eq hbefore,
      scan_dash _ (compared _ hbefore).1, ← not_iff_not, ← hrest]
    simp only
    split_ifs with hthree <;> simp [hthree]
  | case2 back hshape =>
    have hzero : stutter text = 0 := by
      rw [stutter, hback, repeats]
      exact hshape
    refine iff_of_false (fun hthree => ?_) (by rw [hzero]; simp)
    obtain ⟨init, hinit⟩ := (compared text h).2
    rw [hthree] at hinit
    refine hshape init.reverse ?_
    rw [← hback, ← hinit, List.reverse_append]
    rfl

/-! ### Where the marker is found -/

theorem seen_of_even (h : Even (stutter pre)) (post : Bytes) : (after (pre ++ (marker ++ post))).protocolSeen = true := by
  rw [← List.append_assoc]
  refine seen_append ?_ post
  cases hseen : (after pre).protocolSeen with
  | true => exact seen_append hseen marker
  | false =>
    rw [after_append, after_eq hseen, scan_marker _ (compared pre hseen).1, decide_eq_true_eq]
    exact fun hthree => (index_three_iff pre hseen).mp hthree h

theorem exists_of_seen (text : Bytes) (h : (after text).protocolSeen = true) :
    ∃ pre post, text = pre ++ (marker ++ post) ∧ Even (stutter pre) := by
  induction text using List.reverseRecOn with
  | nil => cases h
  | append_singleton text b ih =>
    cases hbefore : (after text).protocolSeen with
    | true =>
      obtain ⟨pre, post, rfl, heven⟩ := ih hbefore
      exact ⟨pre, post ++ [b], by simp, heven⟩
    | false =>
      obtain ⟨hlt, pre, hpre⟩ := compared text hbefore
      have hwhole : text ++ [b] = pre ++ marker := by
        rw [after_snoc hbefore] at h
        unfold Scan.byte at h
        split_ifs at h with hmatch
        · have hlast : (after text).protocolIndex + 1 = marker.length := of_decide_eq_true h
          rw [← hpre, List.append_assoc, ← Option.toList_some b, ← hmatch, ← List.take_add_one, hlast, List.take_length]
        all_goals exact absurd (hbefore.symm.trans h) (by decide)
      refine ⟨pre, [], by rw [hwhole, List.append_nil], ?_⟩
      have hunseen : (after pre).protocolSeen = false := by
        by_contra hseen
        rw [← hpre, seen_append (Bool.of_not_eq_false hseen)] at hbefore
        cases hbefore
      by_contra hodd
      have hthree := (index_three_iff pre hunseen).mpr hodd
      rw [hwhole, after_append, after_eq hunseen, hthree] at h
      exact absurd h (by decide)

/-- **When the scan is right.** The marker is seen exactly if the image has it, just when the image does not have it or
has it behind an even number of `pm-`. -/
theorem seen_iff (chunks : List Bytes) :
    ((scanChunks chunks).protocolSeen = true ↔ marker <:+: chunks.flatten) ↔
      (marker <:+: chunks.flatten →
        ∃ pre post, chunks.flatten = pre ++ (marker ++ post) ∧ Even (stutter pre)) := by
  have hseen : (scanChunks chunks).protocolSeen = true ↔
      ∃ pre post, chunks.flatten = pre ++ (marker ++ post) ∧ Even (stutter pre) := by
    rw [scanChunks_eq]
    refine ⟨exists_of_seen _, ?_⟩
    rintro ⟨pre, post, hflatten, heven⟩
    rw [hflatten]
    exact seen_of_even heven post
  rw [hseen]
  refine ⟨Iff.mpr, fun h => ⟨?_, h⟩⟩
  rintro ⟨pre, post, hflatten, -⟩
  exact ⟨pre, post, by rw [hflatten, List.append_assoc]⟩

/-- **An occurrence is missed.** -/
theorem stuttered_marker_missed :
    ¬ ∀ chunks : List Bytes, (scanChunks chunks).protocolSeen = true ↔ marker <:+: chunks.flatten := by
  intro h
  have hseen := (h [ascii "pm-pm-protocol/1.0.0"]).mpr ⟨ascii "pm-", [], by decide⟩
  exact absurd hseen (by decide)

end PowerMonitor.Ota.ProtocolMarker
