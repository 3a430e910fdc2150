import PowerMonitor.Storage.Events

/-! # The slots of the message pools

A record or an event that is queued for the storage task is copied into a slot of fixed size. A text that does not fit
its array is refused, and a text with a NUL byte is cut there; everything else comes out as it went in
(`content_assign`). -/

namespace PowerMonitor.Storage.MessagePool

open PowerMonitor.Lib.Binary PowerMonitor.Storage.Reading PowerMonitor.Storage.Events

/-! ### Texts -/

/-- What is read of a text that ends at its first NUL. -/
def cString (s : Bytes) : Bytes := s.takeWhile (· != 0)

theorem cString_eq {s : Bytes} (h : 0 ∉ s) : cString s = s :=
  List.takeWhile_eq_self_iff.mpr fun b hb => by
    rw [bne_iff_ne]
    rintro rfl
    exact h hb

theorem length_cString_le (s : Bytes) : (cString s).length ≤ s.length := (List.takeWhile_prefix _).length_le

/-- The text in an array of characters. -/
structure FixedText (capacity : ℕ) where
  text : Bytes
  fits : text.length < capacity
  deriving DecidableEq

variable {capacity : ℕ}

instance [NeZero capacity] : Inhabited (FixedText capacity) := ⟨⟨[], Nat.pos_of_neZero capacity⟩⟩

def copyStorageText (capacity : ℕ) [NeZero capacity] (source : Bytes) : FixedText capacity × Bool :=
  if h : source.length ≥ capacity then (default, false)
  else (⟨cString source, (length_cString_le source).trans_lt (not_le.mp h)⟩, true)

variable [NeZero capacity]

theorem copyStorageText_ok {source : Bytes} : (copyStorageText capacity source).2 = true ↔ source.length < capacity := by
  unfold copyStorageText
  split
  · next h => simpa using h
  · next h => simpa using h

theorem text_copyStorageText {source : Bytes} (h : source.length < capacity) :
    (copyStorageText capacity source).1.text = cString source := by
  rw [copyStorageText, dif_neg (not_le.mpr h)]

/-! ### Records and events -/

structure FixedIntervalRecord where
  deviceId : FixedText 40
  friendlyName : FixedText 65
  bootId : FixedText 65
  energyMethod : FixedText 33
  firmwareVersion : FixedText 33
  /-- The other fields, as those of a record whose texts are not looked at. -/
  figures : IntervalRecord
  deriving DecidableEq

instance : Inhabited FixedIntervalRecord := ⟨⟨default, default, default, default, default, {}⟩⟩

def FixedIntervalRecord.assign (slot : FixedIntervalRecord) (source : IntervalRecord) : FixedIntervalRecord × Bool :=
  let (deviceId, copied) := copyStorageText 40 source.deviceId
  let slot := { slot with deviceId := deviceId }
  if !copied then (slot, false) else
  let (friendlyName, copied) := copyStorageText 65 source.friendlyName
  let slot := { slot with friendlyName := friendlyName }
  if !copied then (slot, false) else
  let (bootId, copied) := copyStorageText 65 source.bootId
  let slot := { slot with bootId := bootId }
  if !copied then (slot, false) else
  let (energyMethod, copied) := copyStorageText 33 source.energyMethod
  let slot := { slot with energyMethod := energyMethod }
  if !copied then (slot, false) else
  let (firmwareVersion, copied) := copyStorageText 33 source.firmwareVersion
  let slot := { slot with firmwareVersion := firmwareVersion }
  if !copied then (slot, false) else
  ({ slot with figures := source }, true)

def FixedIntervalRecord.materialize (slot : FixedIntervalRecord) : IntervalRecord :=
  { slot.figures with
    deviceId := slot.deviceId.text
    friendlyName := slot.friendlyName.text
    bootId := slot.bootId.text
    energyMethod := slot.energyMethod.text
    firmwareVersion := slot.firmwareVersion.text }

structure FixedEventData where
  code : FixedText 65
  severity : FixedText 17
  detail : FixedText 513
  bootId : FixedText 65
  utcMs : UInt64
  sourceEventId : UInt64
  deriving DecidableEq

instance : Inhabited FixedEventData := ⟨⟨default, default, default, default, 0, 0⟩⟩

def FixedEventData.assign (slot : FixedEventData) (source : DeviceEvent) : FixedEventData × Bool :=
  let (code, copied) := copyStorageText 65 source.code
  let slot := { slot with code := code }
  if !copied then (slot, false) else
  let (severity, copied) := copyStorageText 17 source.severity
  let slot := { slot with severity := severity }
  if !copied then (slot, false) else
  let (detail, copied) := copyStorageText 513 source.detail
  let slot := { slot with detail := detail }
  if !copied then (slot, false) else
  let (bootId, copied) := copyStorageText 65 source.bootId
  let slot := { slot with bootId := bootId }
  if !copied then (slot, false) else
  ({ slot with utcMs := source.utcMs, sourceEventId := source.sourceEventId }, true)

/-- What the storage task appends of a slot. -/
def FixedEventData.event (slot : FixedEventData) : DeviceEvent where
  code := slot.code.text
  severity := slot.severity.text
  detail := slot.detail.text
  utcMs := slot.utcMs
  bootId := slot.bootId.text
  sourceEventId := slot.sourceEventId

/-! ### Both kinds -/

inductive Kind
  | record | event
  deriving DecidableEq, Repr

/-- What is queued. -/
def Kind.Source : Kind → Type
  | record => IntervalRecord
  | event => DeviceEvent

/-- What a slot holds. -/
def Kind.Value : Kind → Type
  | record => FixedIntervalRecord
  | event => FixedEventData

instance : (k : Kind) → Inhabited k.Value
  | .record => inferInstanceAs (Inhabited FixedIntervalRecord)
  | .event => inferInstanceAs (Inhabited FixedEventData)

instance : (k : Kind) → DecidableEq k.Source
  | .record => inferInstanceAs (DecidableEq IntervalRecord)
  | .event => inferInstanceAs (DecidableEq DeviceEvent)

def Kind.assign : (k : Kind) → k.Value → k.Source → k.Value × Bool
  | record, slot, source => FixedIntervalRecord.assign slot source
  | event, slot, source => FixedEventData.assign slot source

/-- What the storage task reads. -/
def Kind.content : (k : Kind) → k.Value → k.Source
  | record, slot => FixedIntervalRecord.materialize slot
  | event, slot => FixedEventData.event slot

/-- A source whose texts end at their first NUL. -/
def Kind.clean : (k : Kind) → k.Source → k.Source
  | record, (source : IntervalRecord) => { source with
      deviceId := cString source.deviceId
      friendlyName := cString source.friendlyName
      bootId := cString source.bootId
      energyMethod := cString source.energyMethod
      firmwareVersion := cString source.firmwareVersion : IntervalRecord }
  | event, (source : DeviceEvent) => { source with
      code := cString source.code
      severity := cString source.severity
      detail := cString source.detail
      bootId := cString source.bootId : DeviceEvent }

/-- The texts of a source fit their arrays. -/
def Kind.Fits : (k : Kind) → k.Source → Prop
  | record, (source : IntervalRecord) => source.deviceId.length < 40 ∧ source.friendlyName.length < 65 ∧
      source.bootId.length < 65 ∧ source.energyMethod.length < 33 ∧ source.firmwareVersion.length < 33
  | event, (source : DeviceEvent) => source.code.length < 65 ∧ source.severity.length < 17 ∧
      source.detail.length < 513 ∧ source.bootId.length < 65

theorem FixedIntervalRecord.assign_of_fits {slot : FixedIntervalRecord} {source : IntervalRecord}
    (h : Kind.record.Fits source) :
    (slot.assign source).2 = true ∧ (slot.assign source).1.materialize = Kind.record.clean source := by
  obtain ⟨h1, h2, h3, h4, h5⟩ := h
  simp only [FixedIntervalRecord.assign, copyStorageText_ok.mpr h1, copyStorageText_ok.mpr h2,
    copyStorageText_ok.mpr h3, copyStorageText_ok.mpr h4, copyStorageText_ok.mpr h5, Bool.not_true, Bool.false_eq_true,
    if_false, materialize, text_copyStorageText h1, text_copyStorageText h2, text_copyStorageText h3,
    text_copyStorageText h4, text_copyStorageText h5, Kind.clean, and_self]

theorem FixedEventData.assign_of_fits {slot : FixedEventData} {source : DeviceEvent} (h : Kind.event.Fits source) :
    (slot.assign source).2 = true ∧ (slot.assign source).1.event = Kind.event.clean source := by
  obtain ⟨h1, h2, h3, h4⟩ := h
  simp only [FixedEventData.assign, copyStorageText_ok.mpr h1, copyStorageText_ok.mpr h2, copyStorageText_ok.mpr h3,
    copyStorageText_ok.mpr h4, Bool.not_true, Bool.false_eq_true, if_false, event, text_copyStorageText h1,
    text_copyStorageText h2, text_copyStorageText h3, text_copyStorageText h4, Kind.clean, and_self]

/-- A copy that does not stop reached every text. -/
theorem FixedIntervalRecord.fits_of_assign {slot : FixedIntervalRecord} {source : IntervalRecord}
    (h : (slot.assign source).2 = true) : Kind.record.Fits source := by
  by_contra hnot
  revert h
  simp only [FixedIntervalRecord.assign]
  split_ifs with h1 h2 h3 h4 h5 <;> simp only [false_imp_iff, forall_const]
  simp only [Bool.not_eq_true', Bool.not_eq_false, copyStorageText_ok] at h1 h2 h3 h4 h5
  exact hnot ⟨h1, h2, h3, h4, h5⟩

theorem FixedEventData.fits_of_assign {slot : FixedEventData} {source : DeviceEvent}
    (h : (slot.assign source).2 = true) : Kind.event.Fits source := by
  by_contra hnot
  revert h
  simp only [FixedEventData.assign]
  split_ifs with h1 h2 h3 h4 <;> simp only [false_imp_iff, forall_const]
  simp only [Bool.not_eq_true', Bool.not_eq_false, copyStorageText_ok] at h1 h2 h3 h4
  exact hnot ⟨h1, h2, h3, h4⟩

/-- **What is read of a slot is what was copied into it**, up to a NUL in a text. -/
theorem content_assign (k : Kind) {slot : k.Value} {source : k.Source} (h : (k.assign slot source).2 = true) :
    k.content (k.assign slot source).1 = k.clean source := by
  cases k with
  | record => exact (FixedIntervalRecord.assign_of_fits (FixedIntervalRecord.fits_of_assign h)).2
  | event => exact (FixedEventData.assign_of_fits (FixedEventData.fits_of_assign h)).2

theorem assign_iff (k : Kind) {slot : k.Value} {source : k.Source} :
    (k.assign slot source).2 = true ↔ k.Fits source := by
  cases k with
  | record => exact ⟨FixedIntervalRecord.fits_of_assign, fun h => (FixedIntervalRecord.assign_of_fits h).1⟩
  | event => exact ⟨FixedEventData.fits_of_assign, fun h => (FixedEventData.assign_of_fits h).1⟩

end PowerMonitor.Storage.MessagePool
