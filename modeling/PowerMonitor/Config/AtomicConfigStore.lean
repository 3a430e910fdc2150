import Mathlib.Logic.Function.Basic
import PowerMonitor.Lib.Binary
import PowerMonitor.Lib.Program

/-! # The two-slot store

A payload is kept in one of two slots of a key-value store; a third key, the marker, names the slot
in force and its generation. Both are framed with a magic number, a version and a CRC-32, so that
damaged bytes are refused. `commit` writes the slot that is not in force, with a generation above
both, reads it back, and then moves the marker; `rollbackToPrevious` moves the marker back. Without a
marker that matches its slot, the newest valid slot is in force.

The store is a device (`Lib.Program`): reads are faithful and erasing is effective, a write may be
faulty, and the power may be lost before any operation. -/

namespace PowerMonitor.Config.AtomicConfigStore

open PowerMonitor.Lib.Binary PowerMonitor.Lib.Program

/-! ### The store -/

inductive Slot
  | a | b
  deriving DecidableEq, Repr

/-- The other slot. -/
def Slot.other : Slot → Slot
  | .a => .b
  | .b => .a

/-- The three keys of a store. -/
inductive Key
  | slotA | slotB | active
  deriving DecidableEq, Repr

def slotKey : Slot → Key
  | .a => .slotA
  | .b => .slotB

/-- The operations of a `BlobStore`. -/
inductive Op
  | read (key : Key)
  | write (key : Key) (value : Bytes)
  | erase (key : Key)
  | present (key : Key)
  deriving DecidableEq

/-- What they answer. -/
abbrev Ans : Op → Type
  | .read _ => Option Bytes
  | .write _ _ => Bool
  | .erase _ => Bool
  | .present _ => Bool

/-- The content of the store. -/
abbrev Store := Key → Option Bytes

/-- What the environment does to an operation: a faulty write reports what it likes and leaves some
value at its key. -/
inductive Event
  | done
  | faulty (reported : Bool) (left : Option Bytes)
  deriving DecidableEq

/-- The store as a device. -/
def device : Device Op Ans Event Store where
  act
    | .read key, _, s => (s, s key)
    | .write key value, .done, s => (Function.update s key (some value), true)
    | .write key _, .faulty reported left, s => (Function.update s key left, reported)
    | .erase key, _, s => (Function.update s key none, true)
    | .present key, _, s => (s, (s key).isSome)

abbrev BlobProg := Prog Op Ans

def readKey (key : Key) : BlobProg (Option Bytes) := Prog.op (Op.read key)
def writeKey (key : Key) (value : Bytes) : BlobProg Bool := Prog.op (Op.write key value)
def eraseKey (key : Key) : BlobProg Bool := Prog.op (Op.erase key)
def keyPresent (key : Key) : BlobProg Bool := Prog.op (Op.present key)

/-! ### The frames -/

def recordMagic : ℕ := 0x504D4346
def markerMagic : ℕ := 0x504D4143
def formatVersion : ℕ := 1
def recordHeaderSize : ℕ := 24
def markerSize : ℕ := 20
def maximumPayloadSize : ℕ := 24 * 1024

def recordCrcMaterial (generation : ℕ) (payload : Bytes) : Bytes :=
  leBytes 8 generation ++ (leBytes 4 payload.length ++ payload)

def encodeRecord (generation : ℕ) (payload : Bytes) : Bytes :=
  leBytes 4 recordMagic ++ (leBytes 2 formatVersion ++ (leBytes 2 0 ++ (leBytes 8 generation ++
    (leBytes 4 payload.length ++ (leBytes 4 (crc32 (recordCrcMaterial generation payload)).toNat ++
      payload)))))

def decodeRecord (encoded : Bytes) : Option (ℕ × Bytes) :=
  if encoded.length < recordHeaderSize then none
  else do
    let magic ← readLe 4 encoded 0
    let version ← readLe 2 encoded 4
    let generation ← readLe 8 encoded 8
    let payloadLength ← readLe 4 encoded 16
    let expectedCrc ← readLe 4 encoded 20
    if magic ≠ recordMagic ∨ version ≠ formatVersion ∨ generation = 0 ∨
        payloadLength > maximumPayloadSize ∨ encoded.length ≠ recordHeaderSize + payloadLength then
      none
    else
      let payload := encoded.drop recordHeaderSize
      if (crc32 (recordCrcMaterial generation payload)).toNat = expectedCrc then
        some (generation, payload)
      else none

/-- The slot's letter. -/
def Slot.byte : Slot → UInt8
  | .a => 97
  | .b => 98

def Slot.ofByte (c : UInt8) : Option Slot :=
  if c = 97 then some .a else if c = 98 then some .b else none

def markerCrcMaterial (slot : Slot) (generation : ℕ) : Bytes := slot.byte :: leBytes 8 generation

def encodeMarker (slot : Slot) (generation : ℕ) : Bytes :=
  leBytes 4 markerMagic ++ (leBytes 2 formatVersion ++ ([slot.byte, 0] ++ (leBytes 8 generation ++
    (leBytes 4 (crc32 (markerCrcMaterial slot generation)).toNat ++ []))))

def decodeMarker (encoded : Bytes) : Option (Slot × ℕ) :=
  if encoded.length ≠ markerSize then none
  else do
    let magic ← readLe 4 encoded 0
    let version ← readLe 2 encoded 4
    let generation ← readLe 8 encoded 8
    let expectedCrc ← readLe 4 encoded 16
    if magic ≠ markerMagic ∨ version ≠ formatVersion ∨ generation = 0 then none
    else
      let slot ← Slot.ofByte (encoded.getD 6 0)
      if (crc32 (markerCrcMaterial slot generation)).toNat = expectedCrc then some (slot, generation)
      else none

/-! ### Loading -/

/-- What a load finds. -/
structure LoadResult where
  recoveredFallback : Bool
  slot : Slot
  generation : ℕ
  payload : Bytes
  deriving DecidableEq, Repr

/-- A slot that decoded. -/
structure DecodedSlot where
  slot : Slot
  generation : ℕ
  payload : Bytes
  deriving DecidableEq, Repr

/-- The decoding of what a slot's key holds. -/
def decodeSlot (slot : Slot) (value : Option Bytes) : Option DecodedSlot :=
  (value.bind decodeRecord).map fun r => ⟨slot, r.1, r.2⟩

def newestValid : Option DecodedSlot → Option DecodedSlot → Option DecodedSlot
  | none, b => b
  | some a, none => some a
  | some a, some b => if a.generation ≥ b.generation then some a else some b

/-- The slot the marker names, if the marker is valid and matches it. -/
def markedSlot (a b : Option DecodedSlot) : Option (Slot × ℕ) → Option DecodedSlot
  | none => none
  | some (slot, generation) =>
    (match slot with | .a => a | .b => b).filter fun d => d.generation = generation

/-- The choice of the slot in force. -/
def selectActive (a b : Option DecodedSlot) (marker : Option (Slot × ℕ)) : Option LoadResult :=
  match markedSlot a b marker with
  | some d => some ⟨false, d.slot, d.generation, d.payload⟩
  | none => (newestValid a b).map fun d => ⟨true, d.slot, d.generation, d.payload⟩

def readSlot (slot : Slot) : BlobProg (Option DecodedSlot) := do
  let encoded ← readKey (slotKey slot)
  return decodeSlot slot encoded

def loadActive : BlobProg (Option LoadResult) := do
  let a ← readSlot .a
  let b ← readSlot .b
  let encodedMarker ← readKey .active
  return selectActive a b (encodedMarker.bind decodeMarker)

/-! ### Committing -/

structure CommitResult where
  slot : Slot
  generation : ℕ
  deriving DecidableEq, Repr

def writeVerified (key : Key) (encoded : Bytes) : BlobProg Bool := do
  let written ← writeKey key encoded
  if !written then return false
  else
    let readback ← readKey key
    return readback == some encoded

/-- The cleanup of a failed commit. -/
def discard (key : Key) : BlobProg (Option CommitResult) := do
  let _ ← eraseKey key
  return none

/-- Takes back a marker that did not verify. -/
def restoreMarker (current : Option LoadResult) : BlobProg (Option CommitResult) :=
  match current with
  | some c => do
    let _ ← writeVerified .active (encodeMarker c.slot c.generation)
    return none
  | none => discard .active

/-- The generation of a slot, zero if it is not valid. -/
def generationOf (d : Option DecodedSlot) : ℕ := (d.map DecodedSlot.generation).getD 0

/-- The slot a commit writes. -/
def commitTarget (current : Option LoadResult) : Slot := (current.map fun c => c.slot.other).getD .a

/-- Once the slot is written and read back: the marker, and the final check. -/
def commitMarker (current : Option LoadResult) (target : Slot) (generation : ℕ) (payload : Bytes) :
    BlobProg (Option CommitResult) := do
  let marked ← writeVerified .active (encodeMarker target generation)
  if !marked then discard (slotKey target)
  else
    let verified ← loadActive
    if verified.all fun v => v.slot ≠ target ∨ v.generation ≠ generation ∨ v.payload ≠ payload then do
      let _ ← eraseKey (slotKey target)
      restoreMarker current
    else return some ⟨target, generation⟩

def commit (payload : Bytes) : BlobProg (Option CommitResult) :=
  if payload = [] ∨ payload.length > maximumPayloadSize then return none
  else do
    let current ← loadActive
    let a ← readSlot .a
    let b ← readSlot .b
    let largest := max (generationOf a) (generationOf b)
    if largest = 2 ^ 64 - 1 then return none
    else
      let generation := largest + 1
      let target := commitTarget current
      let written ← writeVerified (slotKey target) (encodeRecord generation payload)
      if !written then discard (slotKey target)
      else
        let slotReadback ← readKey (slotKey target)
        if slotReadback.bind decodeRecord ≠ some (generation, payload) then
          discard (slotKey target)
        else commitMarker current target generation payload

/-! ### Rolling back -/

def loadPrevious (expectedCurrentGeneration : ℕ) : BlobProg (Option LoadResult) := do
  let current ← loadActive
  match current with
  | none => return none
  | some current =>
    if current.generation ≠ expectedCurrentGeneration then return none
    else
      let other ← readSlot current.slot.other
      -- a newer valid slot that is not in force was never committed
      return (other.filter fun d => d.generation < current.generation).map fun d =>
        ⟨false, d.slot, d.generation, d.payload⟩

def rollbackToPrevious (expectedCurrentGeneration : ℕ) : BlobProg (Option LoadResult) := do
  let previous ← loadPrevious expectedCurrentGeneration
  match previous with
  | none => return none
  | some previous =>
    let marked ← writeVerified .active (encodeMarker previous.slot previous.generation)
    if !marked then return none
    else
      let result ← loadActive
      return result.filter fun r => r.slot = previous.slot ∧ r.generation = previous.generation ∧
        r.payload = previous.payload

def anyDataPresent : BlobProg Bool := do
  let a ← keyPresent .slotA
  let b ← keyPresent .slotB
  let m ← keyPresent .active
  return a || b || m

end PowerMonitor.Config.AtomicConfigStore
