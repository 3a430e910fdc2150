import Mathlib.Data.List.AList
import Mathlib.Data.List.Sort
import PowerMonitor.Lib.Steady
import PowerMonitor.Storage.Reading

/-! # The card

The files of a card, and the card as a device (`Lib.Program`): an operation is done, fails, or writes
only a part of its bytes, and the power may be lost between two operations. What the storage keeps in
memory, `Ram`, is lost with the power. -/

namespace PowerMonitor.Storage.Media

open PowerMonitor.Lib.Binary PowerMonitor.Lib.Program PowerMonitor.Lib.Steady PowerMonitor.Storage.Reading

/-! ### Files -/

/-- The files of a card, by path. -/
abbrev Card := AList fun _ : Bytes => Bytes

/-- The files whose path starts with `directory` and ends with `suffix`. -/
def collectFiles (directory suffix : Bytes) (card : Card) : List Bytes :=
  card.keys.filter fun path => directory.isPrefixOf path && suffix.isSuffixOf path

/-- The files of readings, sorted by path. -/
def recordFiles (card : Card) : List Bytes :=
  (collectFiles (ascii "/POWERMON/records/") (ascii ".pmr") card).insertionSort fun a b => decide (a ≤ b)

theorem mem_recordFiles {card : Card} {path : Bytes} :
    path ∈ recordFiles card ↔ (∃ content, card.lookup path = some content) ∧ isRecordFile path = true := by
  simp only [recordFiles, collectFiles, List.mem_insertionSort, List.mem_filter, isRecordFile]
  rw [← AList.mem_keys, ← AList.lookup_isSome, Option.isSome_iff_exists]

/-! ### The storage in memory -/

/-- The health of the storage, as far as the sequences depend on it. -/
structure Health where
  mounted : Bool := false
  writable : Bool := false
  preparedForRemoval : Bool := false
  sequenceFloorReady : Bool := false
  sequenceReconciliationInProgress : Bool := false
  sequenceConflict : Bool := false
  oldestSequence : ℕ := 0
  oldestSyncableSequence : ℕ := 0
  newestSyncableSequence : ℕ := 0
  newestSequence : ℕ := 0
  localRecordCount : ℕ := 0
  sequenceFloor : ℕ := 0
  nextSequence : ℕ := 1
  droppedIntervalCount : ℕ := 0
  deriving DecidableEq, Repr

/-- The variables of the storage: the counter it assigns sequences from, and its health. -/
structure Ram where
  nextSequence : ℕ := 1
  health : Health := {}
  deriving DecidableEq, Repr

/-! ### The device -/

inductive Op
  | read (path : Bytes)
  | append (path content : Bytes)
  | write (path content : Bytes)
  | remove (path : Bytes)
  | rename (source target : Bytes)
  | exists (path : Bytes)
  | ensureDirectory (path : Bytes)
  | freeBytes
  | list (directory suffix : Bytes)
  deriving DecidableEq

/-- What an operation answers: a read, the content of a file that opens; a write, the number of bytes
it reports as written, unless the file does not open; an append, also the size before it. -/
abbrev Ans : Op → Type
  | .read _ => Option Bytes
  | .append _ _ => Option (ℕ × ℕ)
  | .write _ _ => Option ℕ
  | .remove _ => Bool
  | .rename _ _ => Bool
  | .exists _ => Bool
  | .ensureDirectory _ => Bool
  | .freeBytes => ℕ
  | .list _ _ => List Bytes

/-- What the environment does to an operation. A cut write stores some of its bytes and reports fewer
than all; a listing may miss files. -/
inductive Event
  | done
  | failed
  | cut (stored reported : ℕ)
  | free (bytes : ℕ)
  | missing (paths : List Bytes)
  deriving DecidableEq

/-- A write of `content` after `before`: what the file holds then, and what is reported. -/
def written (before content : Bytes) : Event → Bytes × ℕ
  | .cut stored reported => (before ++ content.take stored, min reported (content.length - 1))
  | _ => (before ++ content, content.length)

/-- The card as a device. -/
def device : Device Op Ans Event Card where
  act
    | .read path, e, card => (card, if e = .failed then none else card.lookup path)
    | .append path content, e, card =>
      if e = .failed then (card, none)
      else
        let before := (card.lookup path).getD []
        let (after, reported) := written before content e
        (card.insert path after, some (before.length, reported))
    | .write path content, e, card =>
      if e = .failed then (card, none)
      else
        let (after, reported) := written [] content e
        (card.insert path after, some reported)
    | .remove path, e, card =>
      if e = .failed ∨ (card.lookup path).isNone then (card, false) else (card.erase path, true)
    | .rename source target, e, card =>
      match card.lookup source with
      | none => (card, false)
      | some content =>
        if e = .failed ∨ (card.lookup target).isSome then (card, false)
        else ((card.erase source).insert target content, true)
    | .exists path, e, card => (card, e ≠ .failed && (card.lookup path).isSome)
    | .ensureDirectory _, e, card => (card, e ≠ .failed)
    | .freeBytes, e, card => (card, match e with | .free bytes => bytes | _ => 2 ^ 40)
    | .list directory suffix, e, card =>
      let files := collectFiles directory suffix card
      (card, match e with
        | .failed => []
        | .missing paths => files.filter (· ∉ paths)
        | _ => files)

abbrev CardProg := Prog Op Ans

def readFile (path : Bytes) : CardProg (Option Bytes) := Prog.op (Op.read path)
def appendFile (path content : Bytes) : CardProg (Option (ℕ × ℕ)) := Prog.op (Op.append path content)
def writeFile (path content : Bytes) : CardProg (Option ℕ) := Prog.op (Op.write path content)
def removeFile (path : Bytes) : CardProg Bool := Prog.op (Op.remove path)
def renameFile (source target : Bytes) : CardProg Bool := Prog.op (Op.rename source target)
def fileExists (path : Bytes) : CardProg Bool := Prog.op (Op.exists path)
def ensureDirectory (path : Bytes) : CardProg Bool := Prog.op (Op.ensureDirectory path)
def freeBytes : CardProg ℕ := Prog.op Op.freeBytes
def listFiles (directory suffix : Bytes) : CardProg (List Bytes) := Prog.op (Op.list directory suffix)

/-! ### Undisturbed operations -/

theorem steady_fileExists (path : Bytes) (s : Card) :
    steady device .done (fileExists path) s = ((s.lookup path).isSome, s) := by
  simp [fileExists, device]

theorem steady_readFile (path : Bytes) (s : Card) :
    steady device .done (readFile path) s = (s.lookup path, s) := by
  simp [readFile, device]

theorem steady_writeFile (path content : Bytes) (s : Card) :
    steady device .done (writeFile path content) s = (some content.length, s.insert path content) := by
  simp [writeFile, device, written]

theorem steady_removeFile (path : Bytes) (s : Card) :
    steady device .done (removeFile path) s =
      ((s.lookup path).isSome, if (s.lookup path).isSome then s.erase path else s) := by
  cases h : s.lookup path <;> simp [removeFile, device, h]

theorem steady_renameFile {source target content : Bytes} {s : Card} (hsource : s.lookup source = some content)
    (htarget : s.lookup target = none) :
    steady device .done (renameFile source target) s = (true, (s.erase source).insert target content) := by
  simp [renameFile, device, hsource, htarget]

theorem steady_listFiles (directory suffix : Bytes) (s : Card) :
    steady device .done (listFiles directory suffix) s = (collectFiles directory suffix s, s) := by
  simp [listFiles, device]

/-! ### What an operation leaves alone -/

/-- The files an operation may change are among `paths`. -/
def Op.Within (paths : List Bytes) : Op → Prop
  | .append path _ | .write path _ | .remove path => path ∈ paths
  | .rename source target => source ∈ paths ∧ target ∈ paths
  | _ => True

theorem Op.Within.mono {paths paths' : List Bytes} (hsub : ∀ p ∈ paths, p ∈ paths') {o : Op} (h : o.Within paths) :
    o.Within paths' := by
  cases o with
  | append path content => exact hsub path h
  | write path content => exact hsub path h
  | remove path => exact hsub path h
  | rename source target => exact ⟨hsub source h.1, hsub target h.2⟩
  | _ => trivial

/-- The two cards hold the same files, except `paths`. -/
def SameExcept (paths : List Bytes) (card card' : Card) : Prop :=
  ∀ p, p ∉ paths → card'.lookup p = card.lookup p

theorem SameExcept.refl (paths : List Bytes) (card : Card) : SameExcept paths card card := fun _ _ => rfl

theorem SameExcept.trans {paths : List Bytes} {a b c : Card} (h : SameExcept paths a b)
    (h' : SameExcept paths b c) : SameExcept paths a c := fun p hp => (h' p hp).trans (h p hp)

theorem SameExcept.mono {paths paths' : List Bytes} {a b : Card} (h : SameExcept paths a b)
    (hsub : ∀ p ∈ paths, p ∈ paths') : SameExcept paths' a b := fun p hp => h p fun hp' => hp (hsub p hp')

theorem act_sameExcept {paths : List Bytes} {card : Card} {o : Op} (h : o.Within paths) (e : Event)
    {s : Card} (hs : SameExcept paths card s) : SameExcept paths card (device.act o e s).1 := by
  intro p hp
  rw [← hs p hp]
  cases o with
  | append path content =>
    simp only [device]
    split_ifs
    · rfl
    · exact AList.lookup_insert_ne fun heq => hp (heq ▸ h)
  | write path content =>
    simp only [device]
    split_ifs
    · rfl
    · exact AList.lookup_insert_ne fun heq => hp (heq ▸ h)
  | remove path =>
    simp only [device]
    split_ifs
    · rfl
    · exact AList.lookup_erase_ne fun heq => hp (heq ▸ h)
  | rename source target =>
    simp only [device]
    split
    · rfl
    · split_ifs
      · rfl
      · have hsource : p ≠ source := fun heq => hp (heq ▸ h.1)
        have htarget : p ≠ target := fun heq => hp (heq ▸ h.2)
        rw [AList.lookup_insert_ne htarget, AList.lookup_erase_ne hsource]
  | _ => rfl

/-- **A program changes only the files it may change**, whatever fails and wherever the power is lost. -/
theorem wp_sameExcept {α : Type} {A : Op → Event → Card → Prop} {paths : List Bytes} {p : CardProg α}
    (hp : p.All (Op.Within paths)) (card : Card) :
    wp device A (SameExcept paths card) p (fun _ => SameExcept paths card) card :=
  wp_of_all (fun _ e _ ho _ hs => act_sameExcept ho e hs) hp (SameExcept.refl paths card)

end PowerMonitor.Storage.Media
