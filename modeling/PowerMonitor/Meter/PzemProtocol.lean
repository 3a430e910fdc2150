import PowerMonitor.Lib.Burst
import PowerMonitor.Lib.Ieee
import Mathlib.Data.List.Induction
import Mathlib.Tactic.SplitIfs

/-! # The frames of the meter

The meter is asked for its ten registers and answers with a frame of 25 bytes, which ends with a CRC-16 of what stands
before it, low byte first. A frame is a measurement if its header is right and the register of the CRC is clear after
the whole frame (`accepted_iff`), so a burst of two bytes anywhere in it is noticed (`burst_rejected`). -/

namespace PowerMonitor.Meter.PzemProtocol

open PowerMonitor.Lib.Binary PowerMonitor.Lib.Burst PowerMonitor.Lib

inductive MeterError
  | none
  | timeout
  | shortFrame
  | wrongAddress
  | wrongFunction
  | exceptionResponse
  | invalidByteCount
  | crcMismatch
  | implausibleValue
  | uartFailure
  deriving DecidableEq, Repr

/-- What a response sets of a measurement. -/
structure MeasurementSnapshot where
  rawEnergyWh : ℕ := 0
  voltageV : ℚ := 0
  currentA : ℚ := 0
  activePowerW : ℚ := 0
  frequencyHz : ℚ := 0
  powerFactor : ℚ := 0
  error : MeterError := .none
  valid : Bool := false
  deriving DecidableEq

def defaultAddress : UInt8 := 0xF8
def responseSize : ℕ := 25

/-! ### The CRC-16 -/

def modbusBit (crc : UInt16) : UInt16 :=
  let leastBit := decide (crc &&& 0x0001 ≠ 0)
  let crc := crc >>> 1
  if leastBit then crc ^^^ 0xA001 else crc

def modbusByte (crc : UInt16) (b : UInt8) : UInt16 := (modbusBit^[8]) (crc ^^^ b.toUInt16)

def modbusCrc16 (data : Bytes) : UInt16 := data.foldl modbusByte 0xFFFF

/-! ### Requests and responses -/

def buildReadMeasurementRequest (address : UInt8) : Bytes :=
  let request := [address, 0x04, 0x00, 0x00, 0x00, 0x0A]
  let crc := modbusCrc16 request
  request ++ [(crc &&& 0xFF).toUInt8, (crc >>> 8).toUInt8]

example : buildReadMeasurementRequest defaultAddress = [0xF8, 0x04, 0x00, 0x00, 0x00, 0x0A, 0x64, 0x64] := by
  decide +kernel

def byteAt (data : Bytes) (i : ℕ) : UInt8 := data.getD i 0

def readU16Be (data : Bytes) (i : ℕ) : UInt16 := ((byteAt data i).toUInt16 <<< 8) ||| (byteAt data (i + 1)).toUInt16

/-- Two registers, the low one first. -/
def readRegisterPair (data : Bytes) (i : ℕ) : UInt32 :=
  (readU16Be data i).toUInt32 ||| ((readU16Be data (i + 2)).toUInt32 <<< 16)

/-- A register times a constant, in single precision. -/
def scaled (n : ℕ) (factor : ℚ) : ℚ :=
  Ieee.round Ieee.single (Ieee.round Ieee.single n * Ieee.round Ieee.single factor)

/-- The measurement in the registers of a frame. -/
def measurement (data : Bytes) : MeasurementSnapshot where
  voltageV := scaled (readU16Be data 3).toNat (1 / 10)
  currentA := scaled (readRegisterPair data 5).toNat (1 / 1000)
  activePowerW := scaled (readRegisterPair data 9).toNat (1 / 10)
  rawEnergyWh := (readRegisterPair data 13).toNat
  frequencyHz := scaled (readU16Be data 17).toNat (1 / 10)
  powerFactor := scaled (readU16Be data 19).toNat (1 / 100)
  valid := true

/-- The CRC at the end of a frame. -/
def actualCrc (data : Bytes) : UInt16 :=
  (byteAt data (data.length - 2)).toUInt16 ||| ((byteAt data (data.length - 1)).toUInt16 <<< 8)

/-- The answer, and what the given measurement becomes. -/
def parseMeasurementResponse (data : Bytes) (result : MeasurementSnapshot) (address : UInt8) :
    MeterError × MeasurementSnapshot :=
  let refused := { result with valid := false }
  if data.length < 5 then (.shortFrame, refused)
  else if byteAt data 0 ≠ address then (.wrongAddress, refused)
  else if byteAt data 1 &&& 0x80 ≠ 0 then (.exceptionResponse, refused)
  else if byteAt data 1 ≠ 0x04 then (.wrongFunction, refused)
  else if byteAt data 2 ≠ 20 ∨ data.length ≠ responseSize then (.invalidByteCount, refused)
  else if modbusCrc16 (data.take (data.length - 2)) ≠ actualCrc data then (.crcMismatch, refused)
  else (.none, measurement data)

variable {data data' : Bytes}

/-! ### The register -/

theorem modbusBit_toBitVec (crc : UInt16) : (modbusBit crc).toBitVec = shift 0xA001#16 crc.toBitVec := by
  have hbit : (crc &&& 0x0001).toBitVec = if crc.toBitVec.getLsbD 0 then 1#16 else 0#16 := and_one _
  unfold modbusBit shift
  by_cases h : crc.toBitVec.getLsbD 0 = true
  · rw [if_pos h] at hbit
    have hset : crc &&& 0x0001 ≠ 0 := fun hzero => absurd (hbit.symm.trans (congrArg UInt16.toBitVec hzero)) (by decide)
    simp only [hset, h, ne_eq, not_false_eq_true, decide_true, if_true]
    rfl
  · rw [if_neg h] at hbit
    have hclear : crc &&& 0x0001 = 0 := UInt16.toBitVec_inj.mp hbit
    simp only [hclear, h, ne_eq, not_true_eq_false, decide_false, Bool.false_eq_true, if_false]
    exact (BitVec.xor_zero).symm

theorem iterate_modbusBit (n : ℕ) (crc : UInt16) :
    ((modbusBit^[n]) crc).toBitVec = ((shift 0xA001#16)^[n]) crc.toBitVec := by
  induction n generalizing crc with
  | zero => rfl
  | succ n ih => rw [Function.iterate_succ_apply, ih, modbusBit_toBitVec, ← Function.iterate_succ_apply]

/-- The CRC-16 is a register of 16 bits. -/
theorem modbusCrc16_toBitVec (data : Bytes) : (modbusCrc16 data).toBitVec = register 0xA001#16 0xFFFF#16 data := by
  induction data using List.reverseRecOn with
  | nil => rfl
  | append_singleton data b ih =>
    have hlast : modbusCrc16 (data ++ [b]) = modbusByte (modbusCrc16 data) b := List.foldl_concat ..
    rw [register_append, ← ih, hlast, modbusByte, iterate_modbusBit]
    rfl

/-! ### What is accepted -/

theorem actualCrc_toBitVec (init : Bytes) (low high : UInt8) :
    (actualCrc (init ++ [low, high])).toBitVec = word 16 [low, high] := by
  have hlow : byteAt (init ++ [low, high]) ((init ++ [low, high]).length - 2) = low := by simp [byteAt]
  have hhigh : byteAt (init ++ [low, high]) ((init ++ [low, high]).length - 1) = high := by simp [byteAt]
  rw [actualCrc, hlow, hhigh, word_cons, ← or_byte]
  congr 2
  rw [word_cons]
  simp [word, leNat]

/-- The CRC of a frame is right just if the register is clear after the whole frame. -/
theorem crc_eq_iff (h : 2 ≤ data.length) :
    modbusCrc16 (data.take (data.length - 2)) = actualCrc data ↔ register 0xA001#16 0xFFFF#16 data = 0#16 := by
  obtain ⟨init, low, high, rfl⟩ : ∃ init low high, data = init ++ [low, high] := by
    have htwo : (data.drop (data.length - 2)).length = 2 := by
      rw [List.length_drop]
      omega
    obtain ⟨low, high, hdrop⟩ := List.length_eq_two.mp htwo
    exact ⟨data.take (data.length - 2), low, high, by rw [← hdrop, List.take_append_drop]⟩
  rw [← UInt16.toBitVec_inj, actualCrc_toBitVec, modbusCrc16_toBitVec, register_append,
    register_eq_zero_iff (by decide) _ (by simp), List.take_left' (by simp)]

/-- **What is accepted.** -/
theorem accepted_iff (data : Bytes) (result : MeasurementSnapshot) (address : UInt8) :
    (parseMeasurementResponse data result address).1 = .none ↔
      data.length = responseSize ∧ byteAt data 0 = address ∧ byteAt data 1 = 0x04 ∧ byteAt data 2 = 20 ∧
        register 0xA001#16 0xFFFF#16 data = 0#16 := by
  unfold parseMeasurementResponse
  simp only
  split_ifs with hshort haddress hexception hfunction hcount hcrc
  case pos =>
    refine iff_of_false (by simp) fun h => ?_
    rw [h.1] at hshort
    exact absurd hshort (by decide)
  case pos => exact iff_of_false (by simp) fun h => haddress h.2.1
  case pos =>
    refine iff_of_false (by simp) fun h => ?_
    rw [h.2.2.1] at hexception
    exact absurd hexception (by decide)
  case pos => exact iff_of_false (by simp) fun h => hfunction h.2.2.1
  case pos => exact iff_of_false (by simp) fun h => hcount.elim (absurd h.2.2.2.1) (absurd h.1)
  all_goals rw [ne_eq, crc_eq_iff (by omega)] at hcrc
  · exact iff_of_false (by simp) fun h => hcrc h.2.2.2.2
  · rw [not_or, not_not, not_not] at hcount
    exact iff_of_true rfl ⟨hcount.2, not_not.mp haddress, not_not.mp hfunction, hcount.1, not_not.mp hcrc⟩

/-- A response that is refused leaves no valid measurement. -/
theorem valid_of_refused {result : MeasurementSnapshot} {address : UInt8}
    (h : (parseMeasurementResponse data result address).1 ≠ .none) :
    (parseMeasurementResponse data result address).2.valid = false := by
  unfold parseMeasurementResponse at h ⊢
  simp only at h ⊢
  split_ifs at h ⊢
  case neg => exact absurd rfl h
  all_goals rfl

/-- **A burst of two bytes is noticed.** -/
theorem burst_rejected (address : UInt8) (result result' : MeasurementSnapshot) {data data' : Bytes}
    (haccepted : (parseMeasurementResponse data result address).1 = .none) (hburst : DifferWithin 2 data data')
    (hne : data ≠ data') :
    (parseMeasurementResponse data' result' address).1 ≠ .none ∧
      (parseMeasurementResponse data' result' address).2.valid = false := by
  have hrefused : (parseMeasurementResponse data' result' address).1 ≠ .none := by
    intro haccepted'
    have hclear := ((accepted_iff data result address).mp haccepted).2.2.2.2
    have hclear' := ((accepted_iff data' result' address).mp haccepted').2.2.2.2
    exact register_burst (by decide) (by decide) 0xFFFF#16 hburst hne (hclear.trans hclear'.symm)
  exact ⟨hrefused, valid_of_refused hrefused⟩

/-- 121.3 V, 7.42 A, 873.3 W, 3950.632 kWh, 60 Hz and a power factor of 0.97. -/
def response : Bytes :=
  [0xF8, 0x04, 0x14, 0x04, 0xBD, 0x1C, 0xFC, 0x00, 0x00, 0x22, 0x1D, 0x00, 0x00, 0x48, 0x28, 0x00, 0x3C, 0x02, 0x58,
    0x00, 0x61, 0x00, 0x00, 0x34, 0x9C]

/-- A burst over the last byte of the data and the first of the CRC. -/
theorem burst_rejected_response :
    (parseMeasurementResponse response {} defaultAddress).1 = .none ∧
      (parseMeasurementResponse (response.take 22 ++ [0x01, 0x35, 0x9C]) {} defaultAddress).1 ≠ .none := by
  have haccepted : (parseMeasurementResponse response {} defaultAddress).1 = .none := by decide +kernel
  have hburst : DifferWithin 2 response (response.take 22 ++ [0x01, 0x35, 0x9C]) :=
    @differWithin_parts 2 (response.take 22) [0x9C] [0x00, 0x34] [0x01, 0x35] rfl le_rfl
  exact ⟨haccepted, (burst_rejected defaultAddress {} {} haccepted hburst (by decide)).1⟩

end PowerMonitor.Meter.PzemProtocol
