import PowerMonitor.Storage.Recovery

/-! # What a recovery cuts off a file

`recoverFile` reads the lines of a file up to the first that is too long or does not decode. It cuts the file off
after the lines it has read when the rest is not a complete line; a line that is too long ends the reading in the
same way, though a newline, and more lines, may follow it.

* `recoverLines_ending`: where the reading ends, and how.
* `run_repairFile`: what a repair leaves of the file, whatever fails.
* `trimmed_iff`: when no more than a torn end is lost. -/

namespace PowerMonitor.Storage.LongLines

open PowerMonitor.Lib.Binary PowerMonitor.Lib.Lines PowerMonitor.Lib.Json PowerMonitor.Lib.Program
open PowerMonitor.Storage.Reading PowerMonitor.Storage.Media PowerMonitor.Storage.Segment
open PowerMonitor.Storage.ReadPage PowerMonitor.Storage.SdStorage PowerMonitor.Storage.Frames
open PowerMonitor.Storage.Intact PowerMonitor.Lib.Steady

/-! ### Where the reading ends -/

/-- The line is not too long, and decodes. -/
def reads (j : JsonLibrary) (line : Bytes) : Bool :=
  decide (line.length ≤ 8193) && (decodeLine j .readings line).toOption.isSome

/-- The first bytes of a file, which are lines that can be read. -/
def readable (j : JsonLibrary) (content : Bytes) : Bytes := ((lines content).takeWhile (reads j)).flatten

/-- The first complete line that cannot be read. -/
def firstUnread (j : JsonLibrary) (content : Bytes) : Option Bytes := ((lines content).dropWhile (reads j)).head?

/-- The first complete line that cannot be read is too long. -/
def Overlong (j : JsonLibrary) (content : Bytes) : Prop :=
  ∃ line, firstUnread j content = some line ∧ 8193 < line.length

/-- All complete lines can be read, and something follows them. -/
def Unfinished (j : JsonLibrary) (content : Bytes) : Prop :=
  firstUnread j content = none ∧ unterminated content ≠ []

variable {j : JsonLibrary} {card card' : Card} {path content : Bytes}

theorem reads_iff {line : Bytes} :
    reads j line = true ↔ line.length ≤ 8193 ∧ ∃ e, decodeLine j .readings line = .ok e := by
  unfold reads
  cases decodeLine j .readings line <;> simp [Except.toOption]

/-- **Where the reading ends.** -/
theorem recoverLines_ending (rest : Bytes) (ls : List Bytes) (validEnd : ℕ) (t : Tally) :
    (recoverLines j rest ls validEnd t).2 =
      match ls.dropWhile (reads j) with
      | [] => if rest = [] then .complete else .torn (validEnd + (ls.takeWhile (reads j)).flatten.length)
      | line :: _ =>
        if 8193 < line.length then .torn (validEnd + (ls.takeWhile (reads j)).flatten.length) else .corrupt := by
  induction ls generalizing validEnd t with
  | nil => simp [recoverLines]
  | cons line ls ih =>
    unfold recoverLines
    by_cases hlong : 8193 < line.length
    · have hunread : reads j line = false := by
        rw [Bool.eq_false_iff, Ne, reads_iff]
        exact fun h => absurd h.1 (by omega)
      simp [hlong, hunread]
    · rw [if_neg hlong]
      cases hdecode : decodeLine j .readings line with
      | error error =>
        have hunread : reads j line = false := by
          rw [Bool.eq_false_iff, Ne, reads_iff]
          rintro ⟨-, e, he⟩
          rw [hdecode] at he
          cases he
        simp [hlong, hunread]
      | ok e =>
        have hread : reads j line = true := reads_iff.mpr ⟨by omega, e, hdecode⟩
        simp only [ih, List.dropWhile_cons, List.takeWhile_cons, hread, if_true, List.flatten_cons,
          List.length_append, Nat.add_assoc]

/-! ### What a repair leaves -/

/-- Nothing fails until the file is removed: it opens, its first bytes are copied in full, and it is removed. -/
def Removes (kept : Bytes) : List Event → Prop
  | _ :: source :: write :: remove :: _ =>
    source ≠ .failed ∧ write ≠ .failed ∧ (written [] kept write).2 = kept.length ∧ remove ≠ .failed
  | _ => False

instance (kept : Bytes) (events : List Event) : Decidable (Removes kept events) := by
  unfold Removes
  split <;> infer_instance

theorem removes_iff {kept : Bytes} {discard source write : Event} {events : List Event} :
    Removes kept (discard :: source :: write :: events) ↔
      (source ≠ .failed ∧ write ≠ .failed ∧ (written [] kept write).2 = kept.length) ∧
        ∃ remove later, events = remove :: later ∧ remove ≠ .failed := by
  cases events with
  | nil => simp [Removes]
  | cons remove later => simp [Removes, and_assoc]

/-- What is written to another file, or removed. -/
theorem act_write_repair (part : Bytes) (e : Event) (s : Card) :
    (device.act (.write (repairPath path) part) e s).1.lookup path = s.lookup path := by
  have hne := repair_ne_self path
  simp only [device]
  split_ifs
  · rfl
  · exact AList.lookup_insert_ne hne.symm

theorem act_remove_repair (e : Event) (s : Card) :
    (device.act (.remove (repairPath path)) e s).1.lookup path = s.lookup path := by
  have hne := repair_ne_self path
  simp only [device]
  split_ifs
  · rfl
  · exact AList.lookup_erase_ne hne.symm

/-- The copy takes the place of the file, unless the removal or the renaming fails. -/
theorem run_swap {kept : Bytes} (hfile : card.lookup path = some content)
    (hcopy : card.lookup (repairPath path) = some kept) {events rest : List Event}
    (hrun : run device (do
      let removed ← removeFile path
      if !removed then return ()
      else do
        let _ ← renameFile (repairPath path) path
        return ()) events card = (card', some ((), rest))) :
    card'.lookup path = if events[0]? = some .failed then some content
      else if events[1]? = some .failed then none else some kept := by
  have hne := repair_ne_self path
  obtain ⟨remove, events, rfl, hremoved⟩ := run_op_bind device hrun
  by_cases hremove : remove = .failed
  · subst hremove
    cases hremoved
    simpa [device] using hfile
  · have hact : device.act (.remove path) remove card = (card.erase path, true) := by
      simp [device, hremove, hfile]
    rw [hact] at hremoved
    obtain ⟨rename, events, rfl, hrenamed⟩ := run_op_bind device hremoved
    cases hrenamed
    have hcopy' : (card.erase path).lookup (repairPath path) = some kept := by
      rw [AList.lookup_erase_ne hne, hcopy]
    by_cases hrename : rename = .failed
    · subst hrename
      simp [device, hcopy', hremove, AList.lookup_erase]
    · simp [device, hcopy', hremove, hrename, AList.lookup_erase, AList.lookup_insert]

/-- The copy is thrown away. -/
theorem run_discard (hfile : card.lookup path = some content) {events rest : List Event}
    (hrun : run device (do
      let _ ← removeFile (repairPath path)
      return ()) events card = (card', some ((), rest))) : card'.lookup path = some content := by
  obtain ⟨discard, events, rfl, hdone⟩ := run_op_bind device hrun
  cases hdone
  exact (act_remove_repair discard card).trans hfile

/-- What a repair leaves of the file, whatever fails. -/
theorem run_repairFile (hfile : card.lookup path = some content) {kept : Bytes} (hkept : kept <+: content)
    {events rest : List Event}
    (hrun : run device (repairFile path kept.length) events card = (card', some ((), rest))) :
    card'.lookup path =
      if Removes kept events then (if events[4]? = some .failed then none else some kept) else some content := by
  have htake : content.take kept.length = kept := (List.prefix_iff_eq_take.mp hkept).symm
  unfold repairFile at hrun
  obtain ⟨discard, events, rfl, hdiscarded⟩ := run_op_bind device hrun
  obtain ⟨card₁, hcard₁⟩ : ∃ s, s = (device.act (.remove (repairPath path)) discard card).1 := ⟨_, rfl⟩
  have hfile₁ : card₁.lookup path = some content := hcard₁ ▸ (act_remove_repair discard card).trans hfile
  rw [← hcard₁] at hdiscarded
  obtain ⟨source, events, rfl, hsourced⟩ := run_op_bind device hdiscarded
  by_cases hsource : source = .failed
  · -- nothing was read
    have hact : device.act (.read path) source card₁ = (card₁, none) := by simp [device, hsource]
    rw [hact] at hsourced
    obtain ⟨write, events, rfl, hwritten⟩ := run_op_bind device hsourced
    rw [if_pos (Or.inl rfl)] at hwritten
    rw [run_discard (by rw [act_write_repair, hfile₁]) hwritten, if_neg]
    rw [removes_iff]
    exact fun h => h.1.1 hsource
  · have hact : device.act (.read path) source card₁ = (card₁, some content) := by
      simp [device, hsource, hfile₁]
    rw [hact] at hsourced
    simp only [Option.getD_some, htake] at hsourced
    obtain ⟨write, events, rfl, hwritten⟩ := run_op_bind device hsourced
    by_cases hwrite : write ≠ .failed ∧ (written [] kept write).2 = kept.length
    · have hwhole : (written [] kept write).1 = kept := by
        cases write with
        | cut stored reported =>
          have hempty : kept = [] := by
            have hlength := hwrite.2
            simp only [written] at hlength
            exact List.length_eq_zero_iff.mp (by omega)
          simp [written, hempty]
        | _ => rfl
      have hact' : device.act (.write (repairPath path) kept) write card₁ =
          (card₁.insert (repairPath path) kept, some kept.length) := by
        simp [device, hwrite.1, hwrite.2, hwhole]
      rw [hact', if_neg (by simp)] at hwritten
      have hstill : (card₁.insert (repairPath path) kept).lookup path = some content := by
        rw [AList.lookup_insert_ne (repair_ne_self path).symm, hfile₁]
      obtain ⟨remove, later, rfl, -⟩ := run_op_bind device hwritten
      rw [run_swap hstill (AList.lookup_insert _) hwritten]
      by_cases hremove : remove = .failed
      · have hnot : ¬ Removes kept (discard :: source :: write :: remove :: later) := by
          rw [removes_iff]
          rintro ⟨-, remove', later', heq, hne⟩
          cases heq
          exact hne hremove
        rw [if_neg hnot]
        simp [hremove]
      · rw [if_pos (removes_iff.mpr ⟨⟨hsource, hwrite⟩, remove, later, rfl, hremove⟩)]
        simp [hremove]
    · have hpart : (device.act (.write (repairPath path) kept) write card₁).2 ≠ some kept.length := by
        intro hall
        by_cases hfailed : write = .failed
        · simp [device, hfailed] at hall
        · simp only [device, if_neg hfailed, Option.some.injEq] at hall
          exact hwrite ⟨hfailed, hall⟩
      rw [if_pos (Or.inr (Or.inr hpart))] at hwritten
      rw [run_discard (by rw [act_write_repair, hfile₁]) hwritten, if_neg]
      rw [removes_iff]
      exact fun h => hwrite h.1.2

/-! ### A file after its recovery -/

/-- The file is as it was, or only a piece without a newline is cut off its end. -/
def Trimmed (content : Bytes) (file : Option Bytes) : Prop :=
  ∃ kept torn, file = some kept ∧ content = kept ++ torn ∧ (10 : UInt8) ∉ torn

theorem trimmed_self (content : Bytes) : Trimmed content (some content) :=
  ⟨content, [], rfl, (List.append_nil _).symm, by simp⟩

theorem content_eq (j : JsonLibrary) (content : Bytes) :
    content = readable j content ++ (((lines content).dropWhile (reads j)).flatten ++ unterminated content) := by
  unfold readable
  rw [← List.append_assoc, ← List.flatten_append, List.takeWhile_append_dropWhile, flatten_lines]

/-- What was read of a file is trimmed, unless a line that is too long follows. -/
theorem trimmed_readable (h : Overlong j content ∨ Unfinished j content) :
    Trimmed content (some (readable j content)) ↔ ¬ Overlong j content := by
  have hcontent := content_eq j content
  constructor
  · rintro ⟨kept, torn, hkept, htorn, hnewline⟩ ⟨line, hline, -⟩
    cases hkept
    obtain ⟨after, hunread⟩ := List.head?_eq_some_iff.mp hline
    rw [hunread] at hcontent
    have heq := List.append_cancel_left (htorn.symm.trans hcontent)
    have hmem : line ∈ lines content := (List.dropWhile_suffix _).subset (hunread ▸ List.mem_cons_self)
    obtain ⟨init, hinit, -⟩ := mem_lines hmem
    exact hnewline (by rw [heq, hinit]; simp)
  · intro hnot
    obtain ⟨hnone, -⟩ := h.resolve_left hnot
    rw [firstUnread, List.head?_eq_none_iff] at hnone
    rw [hnone] at hcontent
    exact ⟨_, _, rfl, hcontent, newline_notMem_unterminated content⟩

/-- How the reading of the whole file ends. -/
def endingOf (j : JsonLibrary) (content : Bytes) : Ending :=
  match (lines content).dropWhile (reads j) with
  | [] => if unterminated content = [] then .complete else .torn (readable j content).length
  | line :: _ => if 8193 < line.length then .torn (readable j content).length else .corrupt

theorem ending_torn (h : Overlong j content ∨ Unfinished j content) :
    endingOf j content = .torn (readable j content).length := by
  unfold endingOf
  rcases h with ⟨line, hline, hlong⟩ | ⟨hnone, hrest⟩
  · obtain ⟨after, hunread⟩ := List.head?_eq_some_iff.mp hline
    simp only [hunread, if_pos hlong]
  · rw [firstUnread, List.head?_eq_none_iff] at hnone
    simp only [hnone, if_neg hrest]

theorem ending_untorn (h : ¬ (Overlong j content ∨ Unfinished j content)) :
    endingOf j content = .complete ∨ endingOf j content = .corrupt := by
  rw [not_or] at h
  unfold endingOf
  cases hunread : (lines content).dropWhile (reads j) with
  | nil =>
    have hrest : unterminated content = [] := by
      by_contra hne
      exact h.2 ⟨by rw [firstUnread, hunread]; rfl, hne⟩
    exact Or.inl (if_pos hrest)
  | cons line after =>
    have hshort : ¬ 8193 < line.length := fun hlong => h.1 ⟨line, by rw [firstUnread, hunread]; rfl, hlong⟩
    exact Or.inr (if_neg hshort)

/-- The file is removed for the copy of its first bytes: the scan ends torn, and nothing fails until then. -/
def Replaces (j : JsonLibrary) (content : Bytes) : List Event → Prop
  | scan :: events =>
    scan ≠ .failed ∧ (Overlong j content ∨ Unfinished j content) ∧ Removes (readable j content) events
  | [] => False

open Classical in
/-- **What a recovery leaves of the file**, whatever fails. -/
theorem run_recoverFile (hfile : card.lookup path = some content) {t t' : Tally} {events rest : List Event}
    (hrun : run device (recoverFile j path t) events card = (card', some (t', rest))) :
    card'.lookup path = if Replaces j content events
      then (if events[5]? = some .failed then none else some (readable j content)) else some content := by
  unfold recoverFile at hrun
  obtain ⟨scan, events, rfl, hscanned⟩ := run_op_bind device hrun
  by_cases hscan : scan = .failed
  · have hact : device.act (.read path) scan card = (card, none) := by simp [device, hscan]
    rw [hact] at hscanned
    cases hscanned
    rw [hfile, if_neg (fun h => h.1 hscan)]
  · have hact : device.act (.read path) scan card = (card, some content) := by simp [device, hscan, hfile]
    rw [hact] at hscanned
    simp only at hscanned
    have hending := recoverLines_ending (j := j) (unterminated content) (lines content) 0 t
    generalize recoverLines j (unterminated content) (lines content) 0 t = result at hscanned hending
    obtain ⟨counted, ending⟩ := result
    simp only [Nat.zero_add] at hending hscanned
    by_cases htorn : Overlong j content ∨ Unfinished j content
    · obtain rfl : ending = .torn (readable j content).length := hending.trans (ending_torn htorn)
      obtain ⟨_, mid, s, hrepaired, hdone⟩ := run_bind_some device hscanned
      cases hdone
      rw [run_repairFile hfile ⟨_, (content_eq j content).symm⟩ hrepaired]
      by_cases hremoves : Removes (readable j content) events
      · have hreplaces : Replaces j content (scan :: events) := ⟨hscan, htorn, hremoves⟩
        rw [if_pos hremoves, if_pos hreplaces]
        simp
      · have hnot : ¬ Replaces j content (scan :: events) := fun h => hremoves h.2.2
        rw [if_neg hremoves, if_neg hnot]
    · have hdone : run device (pure counted : CardProg Tally) events card = (card', some (t', rest)) := by
        rcases ending_untorn htorn with hend | hend
        · rw [hending.trans hend] at hscanned
          exact hscanned
        · rw [hending.trans hend] at hscanned
          exact hscanned
      cases hdone
      rw [hfile, if_neg (fun h => htorn h.2.1)]

/-- **A recovery only trims a torn end**, unless its repair replaces the file and then cannot rename the copy, or a
line that is too long is followed by a newline. -/
theorem trimmed_iff (hfile : card.lookup path = some content) {t t' : Tally} {events rest : List Event}
    (hrun : run device (recoverFile j path t) events card = (card', some (t', rest))) :
    Trimmed content (card'.lookup path) ↔
      (Replaces j content events → events[5]? ≠ some .failed ∧ ¬ Overlong j content) := by
  rw [run_recoverFile hfile hrun]
  by_cases hreplaces : Replaces j content events
  · have htorn : Overlong j content ∨ Unfinished j content := by
      cases events with
      | nil => exact hreplaces.elim
      | cons scan events => exact hreplaces.2.1
    rw [if_pos hreplaces]
    by_cases hrename : events[5]? = some .failed
    · rw [if_pos hrename]
      constructor
      · rintro ⟨kept, torn, hkept, -⟩
        cases hkept
      · exact fun h => absurd hrename (h hreplaces).1
    · rw [if_neg hrename, trimmed_readable htorn]
      exact ⟨fun h _ => ⟨hrename, h⟩, fun h => (h hreplaces).2⟩
  · rw [if_neg hreplaces]
    exact ⟨fun _ h => absurd h hreplaces, fun _ => trimmed_self content⟩

/-- The file of a day whose only line is not finished. -/
theorem trimmed_iff_torn : ∃ card', run device (recoverFile textJson (ascii "/d.pmr") {}) (List.replicate 6 .done)
      (AList.insert (ascii "/d.pmr") [63] ∅) = (card', some ({}, [])) ∧
    Trimmed [63] (card'.lookup (ascii "/d.pmr")) := by
  have hrun : run device (recoverFile textJson (ascii "/d.pmr") {}) (List.replicate 6 .done)
      (AList.insert (ascii "/d.pmr") [63] ∅) = (_, some ({}, [])) := rfl
  refine ⟨_, hrun, (trimmed_iff rfl hrun).mpr fun _ => ⟨by decide, ?_⟩⟩
  rintro ⟨line, hline, -⟩
  cases hline

/-- A line that is too long, and a reading behind it. -/
def longFirst (line : Bytes) : Bytes := List.replicate 8193 120 ++ 10 :: line

theorem overlong_longFirst (line : Bytes) : Overlong j (longFirst line) ∧ readable j (longFirst line) = [] := by
  have hlines : lines (longFirst line) = (List.replicate 8193 120 ++ [10]) :: lines line := by
    have hnone : (10 : UInt8) ∉ List.replicate 8193 (120 : UInt8) := by
      rw [List.mem_replicate]
      rintro ⟨-, h⟩
      cases h
    exact (lines_line hnone line).1
  have hlength : (List.replicate 8193 (120 : UInt8) ++ [10]).length = 8194 := by
    rw [List.length_append, List.length_replicate]
    rfl
  have hunread : reads j (List.replicate 8193 (120 : UInt8) ++ [10]) = false := by
    rw [Bool.eq_false_iff, Ne, reads_iff, hlength]
    exact fun h => absurd h.1 (by omega)
  unfold Overlong firstUnread readable
  rw [hlines, List.dropWhile_cons_of_neg (by rw [hunread]; simp), List.takeWhile_cons_of_neg (by rw [hunread]; simp)]
  exact ⟨⟨_, rfl, by omega⟩, rfl⟩

/-- A recovery at which nothing fails empties a file whose first line is too long. -/
theorem run_overlong (hlong : Overlong j content) (hread : readable j content = [])
    (hfile : card.lookup path = some content) : ∃ n card' t' rest,
    run device (recoverFile j path {}) (List.replicate n .done) card = (card', some (t', rest)) ∧
      card'.lookup path = some [] ∧ ¬ Trimmed content (card'.lookup path) := by
  have hrun := run_calls (D := device) (e := .done) (recoverFile j path {}) (List.replicate 6 .done) card
  rw [List.replicate_append_replicate] at hrun
  have hreplaces (n : ℕ) : Replaces j content (List.replicate (n + 6) .done) :=
    ⟨by decide, Or.inl hlong, by rw [hread]; exact ⟨by decide, by decide, rfl, by decide⟩⟩
  have hleft := run_recoverFile hfile hrun
  rw [if_pos (hreplaces _), if_neg (by simp), hread] at hleft
  refine ⟨_, _, _, _, hrun, hleft, ?_⟩
  have htrimmed := trimmed_readable (Or.inl hlong)
  rw [hread] at htrimmed
  rw [hleft]
  exact fun h => htrimmed.mp h hlong

/-- A reading behind a line that is too long is cut off with it, though nothing fails. -/
theorem long_line_cuts : ∃ line n card' t' rest, decodeLine textJson .readings line = .ok (entryOf textJson {}) ∧
    run device (recoverFile textJson (ascii "/d.pmr") {}) (List.replicate n .done)
      (AList.insert (ascii "/d.pmr") (longFirst line) ∅) = (card', some (t', rest)) ∧
    card'.lookup (ascii "/d.pmr") = some [] ∧ ¬ Trimmed (longFirst line) (card'.lookup (ascii "/d.pmr")) := by
  obtain ⟨hlong, hread⟩ := overlong_longFirst (j := textJson) (recordEnvelope textJson {})
  obtain ⟨n, card', t', rest, hcut⟩ := run_overlong hlong hread (AList.lookup_insert _)
  exact ⟨_, n, card', t', rest, decodeLine_recordEnvelope textJson_lawful {}, hcut⟩

end PowerMonitor.Storage.LongLines
