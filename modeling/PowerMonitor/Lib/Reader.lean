import PowerMonitor.Lib.Binary

/-! # Readers

A reader takes a value off the front of a byte string, or fails. The readers of fixed-width numbers
and of length-prefixed texts, and the writers they undo. -/

namespace PowerMonitor.Lib.Reader

open PowerMonitor.Lib.Binary

/-- A value taken off the front of a byte string. -/
abbrev ByteReader := StateT Bytes Option

/-- The next `k` bytes. -/
def readBytes (k : ℕ) : ByteReader Bytes := fun input =>
  if input.length < k then none else some (input.take k, input.drop k)

def readUInt8 : ByteReader UInt8 := do
  let bytes ← readBytes 1
  return UInt8.ofNat (leNat bytes)

def readUInt16 : ByteReader UInt16 := do
  let bytes ← readBytes 2
  return UInt16.ofNat (leNat bytes)

def readUInt32 : ByteReader UInt32 := do
  let bytes ← readBytes 4
  return UInt32.ofNat (leNat bytes)

def readUInt64 : ByteReader UInt64 := do
  let bytes ← readBytes 8
  return UInt64.ofNat (leNat bytes)

/-- A text with its length in two bytes, of at most `maximum` bytes. -/
def readText (maximum : ℕ) : ByteReader Bytes := do
  let length ← readUInt16
  if length.toNat > maximum then failure
  else readBytes length.toNat

def putUInt16 (value : UInt16) : Bytes := leBytes 2 value.toNat
def putUInt32 (value : UInt32) : Bytes := leBytes 4 value.toNat
def putUInt64 (value : UInt64) : Bytes := leBytes 8 value.toNat

/-- The length is cut to two bytes. -/
def putText (value : Bytes) : Bytes := putUInt16 (UInt16.ofNat value.length) ++ value

end PowerMonitor.Lib.Reader
