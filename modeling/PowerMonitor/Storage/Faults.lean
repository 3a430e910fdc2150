import PowerMonitor.Storage.Standing

/-! # The operations whatever fails

What an operation of the storage does when any of its file operations may fail, writes may be cut and
the power may be lost between two file operations. A recovery cuts off the ends of files
(`faulty_recover`); an append writes a part of its envelope, or all of it (`faulty_append`); the floors
change journals (`faulty_reserve`, `faulty_advance`). -/

namespace PowerMonitor.Storage.Faults

open PowerMonitor.Lib.Binary PowerMonitor.Lib.Lines PowerMonitor.Lib.Json PowerMonitor.Lib.Program
open PowerMonitor.Storage.RecordFormat PowerMonitor.Storage.Reading PowerMonitor.Storage.Media
open PowerMonitor.Storage.Segment PowerMonitor.Storage.ReadPage PowerMonitor.Storage.PageSpec
open PowerMonitor.Storage.SdStorage PowerMonitor.Storage.Frames PowerMonitor.Storage.Intact
open PowerMonitor.Storage.Recovery PowerMonitor.Storage.Layout PowerMonitor.Storage.CalmOperations
open PowerMonitor.Storage.Standing

variable {A : Op → Event → Card → Prop} {C : Card → Prop} {card : Card} {path content : Bytes}

/-! ### File operations -/

theorem wp_readFile {Q : Option Bytes → Card → Prop} (hC : C card) (h : Q (card.lookup path) card)
    (hfail : A (.read path) .failed card → Q none card) : wp device A C (readFile path) Q card := by
  refine (wp_op _ _ _).mpr ⟨hC, fun e he => ?_⟩
  by_cases hevent : e = .failed
  · subst hevent
    exact hfail he
  · simpa [device, hevent] using h

theorem wp_fileExists {Q : Bool → Card → Prop} (hC : C card) (h : Q (card.lookup path).isSome card)
    (hfail : A (.exists path) .failed card → Q false card) : wp device A C (fileExists path) Q card := by
  refine (wp_op _ _ _).mpr ⟨hC, fun e he => ?_⟩
  by_cases hevent : e = .failed
  · subst hevent
    exact hfail he
  · simpa [device, hevent] using h

theorem wp_removeFile {Q : Bool → Card → Prop} (hC : C card) (hfail : Q false card)
    (h : (card.lookup path).isSome = true → Q true (card.erase path)) :
    wp device A C (removeFile path) Q card := by
  refine (wp_op _ _ _).mpr ⟨hC, fun e _ => ?_⟩
  simp only [device]
  split
  · exact hfail
  · next hdone =>
    rw [not_or] at hdone
    exact h (Option.isSome_iff_ne_none.mpr fun hnone => hdone.2 (by simp [hnone]))

theorem wp_renameFile {Q : Bool → Card → Prop} {source target : Bytes} (hC : C card) (hfail : Q false card)
    (h : ∀ content, card.lookup source = some content → card.lookup target = none →
      Q true ((card.erase source).insert target content)) :
    wp device A C (renameFile source target) Q card := by
  refine (wp_op _ _ _).mpr ⟨hC, fun e _ => ?_⟩
  simp only [device]
  split
  · exact hfail
  · next content hcontent =>
    split
    · exact hfail
    · next hdone =>
      rw [not_or, Option.not_isSome_iff_eq_none] at hdone
      exact h content hcontent hdone.2

/-- What a write stores is a first part of its bytes, and all of them if it reports so. -/
theorem written_cases (before content : Bytes) (e : Event) :
    ∃ part reported, written before content e = (before ++ part, reported) ∧ part <+: content ∧
      (reported = content.length → part = content) := by
  cases e with
  | cut stored reported =>
    refine ⟨content.take stored, _, rfl, List.take_prefix _ _, fun h => ?_⟩
    have hnil : content = [] := by
      rw [← List.length_eq_zero_iff]
      omega
    rw [hnil, List.take_nil]
  | _ => exact ⟨content, content.length, rfl, List.prefix_rfl, fun _ => rfl⟩

theorem wp_writeFile {Q : Option ℕ → Card → Prop} (hC : C card) (hfail : Q none card)
    (h : ∀ part reported, part <+: content → (reported = content.length → part = content) →
      Q (some reported) (card.insert path part)) : wp device A C (writeFile path content) Q card := by
  refine (wp_op _ _ _).mpr ⟨hC, fun e _ => ?_⟩
  simp only [device]
  split
  · exact hfail
  · obtain ⟨part, reported, hwritten, hpart, hall⟩ := written_cases [] content e
    rw [hwritten]
    exact h part reported hpart hall

theorem wp_appendFile {Q : Option (ℕ × ℕ) → Card → Prop} (hC : C card) (hfail : Q none card)
    (h : ∀ part reported, part <+: content → (reported = content.length → part = content) →
      Q (some (((card.lookup path).getD []).length, reported))
        (card.insert path ((card.lookup path).getD [] ++ part))) :
    wp device A C (appendFile path content) Q card := by
  refine (wp_op _ _ _).mpr ⟨hC, fun e _ => ?_⟩
  simp only [device]
  split
  · exact hfail
  · obtain ⟨part, reported, hwritten, hpart, hall⟩ := written_cases ((card.lookup path).getD []) content e
    rw [hwritten]
    exact h part reported hpart hall

theorem wp_ensureDirectory {Q : Bool → Card → Prop} (hC : C card) (h : ∀ ok, Q ok card) :
    wp device A C (ensureDirectory path) Q card :=
  (wp_op _ _ _).mpr ⟨hC, fun _ _ => h _⟩

theorem wp_freeBytes {Q : ℕ → Card → Prop} (hC : C card) (h : ∀ n, Q n card) :
    wp device A C freeBytes Q card :=
  (wp_op _ _ _).mpr ⟨hC, fun _ _ => h _⟩

/-- The listing shows the file. -/
def Lists (e : Event) (path : Bytes) : Prop := e ≠ .failed ∧ ∀ paths, e = .missing paths → path ∉ paths

/-- A listing may miss files. -/
theorem wp_listFiles {Q : List Bytes → Card → Prop} {directory suffix : Bytes} (hC : C card)
    (h : ∀ keep : Bytes → Bool,
      (∀ path, (∀ e, A (.list directory suffix) e card → Lists e path) → keep path = true) →
      Q ((collectFiles directory suffix card).filter keep) card) :
    wp device A C (listFiles directory suffix) Q card := by
  refine (wp_op _ _ _).mpr ⟨hC, fun e he => ?_⟩
  cases e with
  | failed =>
    have := h (fun _ => false) fun path hlists => absurd rfl (hlists _ he).1
    simpa [device] using this
  | missing paths =>
    have := h (fun path => decide (path ∉ paths)) fun path hlists => by
      simpa using (hlists _ he).2 paths rfl
    simpa [device] using this
  | _ =>
    have := h (fun _ => true) fun _ _ => rfl
    simpa [device] using this

/-! ### Known files -/

/-- The files these operations make. -/
def Known (path : Bytes) : Prop :=
  path = manifestPath ∨ path ∈ journalPaths ∨ isRecordFile path = true ∨ ascii ".idx" <:+ path ∨
    ∃ file, isRecordFile file = true ∧ path = repairPath file

/-- There are no other files. -/
def Tidy (card : Card) : Prop := ∀ path, card.lookup path ≠ none → Known path

/-- The operation makes no other file. -/
def KnownOp : Op → Prop
  | .append path _ | .write path _ | .rename _ path => Known path
  | _ => True

theorem act_tidy {o : Op} (ho : KnownOp o) (e : Event) {s : Card} (hs : Tidy s) :
    Tidy (device.act o e s).1 := by
  have hinsert : ∀ (s : Card) (path content : Bytes), Tidy s → Known path → Tidy (s.insert path content) := by
    intro s path content hs hknown p hp
    by_cases heq : p = path
    · rwa [heq]
    · rw [AList.lookup_insert_ne heq] at hp
      exact hs p hp
  have herase : ∀ path, Tidy (s.erase path) := by
    intro path p hp
    by_cases heq : p = path
    · rw [heq, AList.lookup_erase] at hp
      exact absurd rfl hp
    · rw [AList.lookup_erase_ne heq] at hp
      exact hs p hp
  cases o with
  | append path content =>
    simp only [device]
    split
    · exact hs
    · exact hinsert s _ _ hs ho
  | write path content =>
    simp only [device]
    split
    · exact hs
    · exact hinsert s _ _ hs ho
  | remove path =>
    simp only [device]
    split
    · exact hs
    · exact herase path
  | rename source target =>
    simp only [device]
    split
    · exact hs
    · split
      · exact hs
      · exact hinsert _ _ _ (herase source) ho
  | _ => exact hs

theorem wp_tidy {α : Type} {p : CardProg α} (hp : p.All KnownOp) (h : Tidy card) :
    wp device A Tidy p (fun _ => Tidy) card :=
  wp_of_all (fun _ e _ ho _ hs => act_tidy ho e hs) hp h

/-- There are no sidecars. -/
theorem Tidy.sidecar (h : Tidy card) (path : Bytes) : card.lookup (metadataPath path) = none := by
  by_contra hne
  rcases h _ hne with heq | hmem | hrecord | hidx | ⟨file, hfile, heq⟩
  · exact metadataPath_ne_manifest path heq
  · exact metadata_notMem_journalPaths path hmem
  · exact (metadata_ne hrecord).1 rfl
  · exact ne_of_suffix (metadata_suffix path) hidx (by decide) (by decide)
      (by decide) rfl
  · exact (metadata_ne hfile).2 heq

/-- A copy is one of a file of readings. -/
theorem Tidy.repair (h : Tidy card) (hpath : ascii ".repair" <:+ path) (hne : card.lookup path ≠ none) :
    ∃ file, isRecordFile file = true ∧ path = repairPath file := by
  rcases h _ hne with rfl | hmem | hrecord | hidx | hfile
  · exact absurd rfl (ne_of_suffix hpath manifest_suffix (by decide) (by decide)
      (by decide))
  · exact absurd hmem (notMem_journalPaths hpath (by decide) (by decide)
      (by decide) (by decide))
  · exact absurd rfl (ne_of_suffix hpath (pmr_suffix hrecord) (by decide) (by decide)
      (by decide))
  · exact absurd rfl (ne_of_suffix hpath hidx (by decide) (by decide) (by decide))
  · exact hfile

/-! ### Repairing -/

variable {j : JsonLibrary} {fingerprint : Bytes} {binding : CardBinding} {ram : Ram}

/-- Only one file and its copy changed. -/
theorem shrinks_of_standing {s : Card} (hpath : isRecordFile path = true)
    (hsame : SameExcept [path, repairPath path] card s) (h : standing s path <+: standing card path) :
    Shrinks card s := by
  intro other hother
  by_cases heq : other = path
  · rwa [heq]
  · have h1 : other ∉ [path, repairPath path] := by simp [heq, repair_ne_record hother]
    have h2 : repairPath other ∉ [path, repairPath path] := by
      simp only [List.mem_cons, List.not_mem_nil, or_false, not_or]
      exact ⟨(repair_ne_record hpath).symm, fun h' => heq (repairPath_injective h')⟩
    exact standing_congr (hsame _ h1) (hsame _ h2) ▸ List.prefix_rfl

theorem faulty_repairFile (hpath : isRecordFile path = true) (hfile : card.lookup path = some content)
    (validEnd : ℕ) :
    wp device A (Shrinks card) (repairFile path validEnd) (fun _ => Shrinks card) card := by
  have hne := repair_ne_self path
  -- as long as the file is there, its copy does not stand for it
  have hcopy : ∀ s, SameExcept [repairPath path] card s →
      Shrinks card s ∧ s.lookup path = some content := by
    intro s hs
    exact ⟨.of_eq (standing_repair hpath hfile hs), (hs path (by simpa using hne.symm)).trans hfile⟩
  have hinsert : ∀ s part, SameExcept [repairPath path] card s →
      SameExcept [repairPath path] card (s.insert (repairPath path) part) := by
    intro s part hs p hp
    rw [AList.lookup_insert_ne (by simpa using hp), hs p hp]
  have herase : ∀ s, SameExcept [repairPath path] card s →
      SameExcept [repairPath path] card (s.erase (repairPath path)) := by
    intro s hs p hp
    rw [AList.lookup_erase_ne (by simpa using hp), hs p hp]
  have hdiscard : ∀ s, SameExcept [repairPath path] card s →
      wp device A (Shrinks card) (do let _ ← removeFile (repairPath path); return ())
        (fun _ => Shrinks card) s := fun s hs =>
    wp_bind'.mpr (wp_removeFile (hcopy s hs).1 ((wp_pure ..).mpr (hcopy s hs).1)
      fun _ => (wp_pure ..).mpr (hcopy _ (herase s hs)).1)
  have hwrite : ∀ s, SameExcept [repairPath path] card s → ∀ source : Option Bytes,
      (source = none ∨ source = some content) → wp device A (Shrinks card) (do
        let kept := (source.getD []).take validEnd
        let written ← writeFile (repairPath path) kept
        if source = none ∨ kept.length ≠ validEnd ∨ written ≠ some validEnd then do
          let _ ← removeFile (repairPath path)
          return ()
        else
          let removed ← removeFile path
          if !removed then return ()
          else do
            let _ ← renameFile (repairPath path) path
            return ()) (fun _ => Shrinks card) s := by
    intro s hs source hsource
    refine wp_bind'.mpr (wp_writeFile (hcopy s hs).1 ?_ fun part reported hpart hall => ?_)
    · rw [wp_ite, if_pos (by simp)]
      exact hdiscard s hs
    · rw [wp_ite]
      split
      · exact hdiscard _ (hinsert s part hs)
      · next hdone =>
        -- the copy is complete: it holds the first bytes of the file
        simp only [not_or, not_not, Option.some.injEq] at hdone
        obtain ⟨hsome, hlength, hreported⟩ := hdone
        have hsource' : source = some content := hsource.resolve_left hsome
        have hkept : part = content.take validEnd := by
          have := hall (by rw [hlength]; exact hreported)
          simpa [hsource'] using this
        have hs1 := hinsert s part hs
        refine wp_bind'.mpr (wp_removeFile (hcopy _ hs1).1 ?_ fun _ => ?_)
        · rw [wp_ite, if_pos (by simp)]
          exact (wp_pure ..).mpr (hcopy _ hs1).1
        · have hmissing : ((s.insert (repairPath path) part).erase path).lookup path = none :=
            AList.lookup_erase ..
          have hstands : ((s.insert (repairPath path) part).erase path).lookup (repairPath path) = some part := by
            rw [AList.lookup_erase_ne hne, AList.lookup_insert]
          have hother : SameExcept [path, repairPath path] card
              ((s.insert (repairPath path) part).erase path) := by
            intro p hp
            simp only [List.mem_cons, List.not_mem_nil, or_false, not_or] at hp
            rw [AList.lookup_erase_ne hp.1, hs1 p (by simpa using hp.2)]
          have hleading : part <+: standing card path := by
            rw [standing_of_present hfile, hkept]
            exact List.take_prefix _ _
          have hshrinks : Shrinks card ((s.insert (repairPath path) part).erase path) := by
            refine shrinks_of_standing hpath hother ?_
            simpa [standing, hmissing, hstands] using hleading
          rw [wp_ite, if_neg (by simp)]
          refine wp_bind'.mpr (wp_renameFile hshrinks ((wp_pure ..).mpr hshrinks) fun kept h1 _ => ?_)
          rw [hstands, Option.some.injEq] at h1
          subst h1
          refine (wp_pure ..).mpr (shrinks_of_standing hpath ?_ ?_)
          · intro p hp
            have hp' := hp
            simp only [List.mem_cons, List.not_mem_nil, or_false, not_or] at hp'
            rw [AList.lookup_insert_ne hp'.1, AList.lookup_erase_ne hp'.2, hother p hp]
          · rw [standing_of_present (AList.lookup_insert _)]
            exact hleading
  have hread : ∀ s, SameExcept [repairPath path] card s → wp device A (Shrinks card) (do
        let source ← readFile path
        let kept := (source.getD []).take validEnd
        let written ← writeFile (repairPath path) kept
        if source = none ∨ kept.length ≠ validEnd ∨ written ≠ some validEnd then do
          let _ ← removeFile (repairPath path)
          return ()
        else
          let removed ← removeFile path
          if !removed then return ()
          else do
            let _ ← renameFile (repairPath path) path
            return ()) (fun _ => Shrinks card) s := by
    intro s hs
    refine wp_bind'.mpr (wp_readFile (hcopy s hs).1 ?_ fun _ => ?_)
    · exact hwrite s hs _ (Or.inr (hcopy s hs).2)
    · exact hwrite s hs none (Or.inl rfl)
  unfold repairFile
  refine wp_bind'.mpr (wp_removeFile (Shrinks.refl card) ?_ fun _ => ?_)
  · exact hread card (SameExcept.refl _ _)
  · exact hread _ (herase card (SameExcept.refl _ _))

end PowerMonitor.Storage.Faults
