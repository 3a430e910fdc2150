import PowerMonitor.Storage.Inspection

/-! # Rebuilding the indexes

The index of each file of records is written anew beside the live one, compared with the records row by row,
and only then takes its place (`rebuildIndex`). The file of records is never changed. -/

namespace PowerMonitor.Storage.RebuildIndexes

open PowerMonitor.Lib.Binary PowerMonitor.Lib.Lines PowerMonitor.Lib.Json PowerMonitor.Lib.Program
open PowerMonitor.Storage.RecordFormat PowerMonitor.Storage.Reading PowerMonitor.Storage.Media
open PowerMonitor.Storage.Segment PowerMonitor.Storage.SdStorage PowerMonitor.Storage.Inspection

/-! ### The rows -/

/-- What is counted of the rows. -/
structure Rows where
  count : ℕ := 0
  first : ℕ := 0
  last : ℕ := 0
  offset : ℕ := 0
  deriving DecidableEq, Repr

def Rows.add (rows : Rows) (sequence length : ℕ) : Rows where
  count := rows.count + 1
  first := if rows.first = 0 then sequence else rows.first
  last := sequence
  offset := rows.offset + length

/-- The sequence, the time and the checksum of a line that is good. -/
def indexedLine (j : JsonLibrary) (line : Bytes) : Option (ℕ × ℕ × UInt32) :=
  if 8193 < line.length then none
  else do
    let (payload, checksum) ← decodeEnvelope line
    let document ← j.deserialize payload
    let sequence := document (ascii "sequence")
    let start := document (ascii "start_utc_ms")
    if sequence.isUnsigned && start.isUnsigned then
      return (sequence.asUnsigned.toNat, start.asUnsigned.toNat, checksum)
    else none

/-- Writes a row for each line; the sequences must increase, and nothing may follow the last line. -/
def stageRows (j : JsonLibrary) (staged rest : Bytes) : List Bytes → Rows → CardProg (Option Rows)
  | [], rows => return if rest = [] then some rows else none
  | line :: ls, rows =>
    match indexedLine j line with
    | none => return none
    | some (sequence, start, checksum) =>
      if sequence = 0 ∨ (rows.last ≠ 0 ∧ sequence ≤ rows.last) then return none
      else do
        let written ← appendIndex staged sequence start rows.offset checksum
        if !written then return none else stageRows j staged rest ls (rows.add sequence line.length)

/-- The rows that a file must have. -/
def exactRows (j : JsonLibrary) (rest : Bytes) : List Bytes → Rows → Option (Bytes × Rows)
  | [], rows => if rest = [] then some ([], rows) else none
  | line :: ls, rows => do
    let (sequence, start, checksum) ← indexedLine j line
    let row := indexRow sequence start rows.offset checksum
    if 96 ≤ row.length then none
    else do
      let (others, all) ← exactRows j rest ls (rows.add sequence line.length)
      return (row ++ others, all)

/-! ### One index -/

def stagedPath (index : Bytes) : Bytes := index ++ ascii ".rebuild"
def backupPath (index : Bytes) : Bytes := index ++ ascii ".previous"

/-- A backup that an interrupted swap left takes the place of the index. -/
def restorePrevious (index : Bytes) : CardProg Bool := do
  let present ← fileExists index
  let backed ← runIf (!present) (fileExists (backupPath index)) false
  runIf backed (renameFile (backupPath index) index) true

/-- Writes the rows beside the index and reads them back; the figures of the rows, if they are right. -/
def stageIndex (j : JsonLibrary) (path index : Bytes) : CardProg (Option Rows) := do
  let input ← readFile path
  match input with
  | none => return none
  | some content => do
    let rows ← stageRows j (stagedPath index) (unterminated content) (lines content) {}
    match rows with
    | none => return none
    | some rows =>
      if rows.count = 0 then return none
      else do
        let authoritative ← readFile path
        let staged ← readFile (stagedPath index)
        let exact := authoritative.bind fun content => exactRows j (unterminated content) (lines content) {}
        return if staged.isSome ∧ exact = staged.map (·, rows) then some rows else none

/-- The live index goes to its backup, and the staged one takes its place. -/
def swapIndex (index : Bytes) (hadIndex : Bool) : CardProg Bool := do
  let moved ← runIf hadIndex (renameFile index (backupPath index)) true
  let renamed ← runIf moved (renameFile (stagedPath index) index) false
  if renamed then return true
  else do
    let _ ← removeFile (stagedPath index)
    let present ← runIf hadIndex (fileExists index) true
    let _ ← runIf (!present) (renameFile (backupPath index) index) true
    return false

/-- The segment is inspected with its new index; its sidecar is stored and the backup removed. -/
def acceptIndex (j : JsonLibrary) (path index : Bytes) (hadIndex : Bool) (rows : Rows) : CardProg Bool := do
  let content ← readFile path
  let rowsFile ← readFile index
  let inspected := inspectSegment j path content rowsFile
  if !inspected.complete || !inspected.indexValid || inspected.recordCount ≠ rows.count ||
      inspected.firstSequence ≠ rows.first || inspected.lastSequence ≠ rows.last then do
    let _ ← removeFile index
    let _ ← runIf hadIndex (renameFile (backupPath index) index) true
    return false
  else do
    let persisted ← persistSegmentMetadata j inspected
    let _ ← removeFile (backupPath index)
    return persisted

def rebuildIndex (j : JsonLibrary) (path : Bytes) : CardProg Bool := do
  let index := pairedIndexPath path
  if index = [] then return false
  else
    let directory ← ensureDirectory (directoryOf index)
    let restored ← runIf directory (restorePrevious index) false
    let unstaged ← runIf restored (removeIfPresent (stagedPath index)) false
    let unbacked ← runIf unstaged (removeIfPresent (backupPath index)) false
    if !unbacked then return false
    else do
      let rows ← stageIndex j path index
      match rows with
      | none => do
        let _ ← removeFile (stagedPath index)
        return false
      | some rows => do
        let hadIndex ← fileExists index
        let swapped ← swapIndex index hadIndex
        if !swapped then return false else acceptIndex j path index hadIndex rows

def rebuildAll (j : JsonLibrary) : List Bytes → CardProg Bool
  | [] => return true
  | path :: rest => do
    let done ← rebuildIndex j path
    let others ← rebuildAll j rest
    return done && others

/-- Rebuilds every index of a mounted card. -/
def rebuildIndexes (j : JsonLibrary) (mounted : Bool) : CardProg Bool :=
  if !mounted then return false
  else do
    let files ← listFiles (ascii "/POWERMON/records/") (ascii ".pmr")
    rebuildAll j files

end PowerMonitor.Storage.RebuildIndexes
