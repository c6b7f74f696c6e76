import SimuSound.Imu.DmpSensors
import SimuSound.Imu.Fifo
import Mathlib.Data.Fin.VecNotation
import Mathlib.Logic.Function.Basic

/-!
# DmpFifo — taking one DMP frame out of the FIFO

A frame is a header, perhaps a second header, the payloads that the two announce and a footer.
Before every part the decoder makes sure that the FIFO holds it, and counts the FIFO again when the
count it remembers is too small.
-/

namespace SimuSound.Imu

open Reasoning

/-- `n` bytes of storage. -/
abbrev Bytes (n : Nat) := Fin n → Byte

/-- `icm_20948_DMP_data_t` on the target: a union is its bytes, and those of `Quat9`, `Geomag` and
`Activity_Recognition` are longer than their payloads because of the alignment of their members. -/
structure DmpData where
  header : BitVec 16
  header2 : BitVec 16
  rawAccel : Bytes 6
  rawGyro : Bytes 12
  compass : Bytes 6
  als : Bytes 8
  quat6 : Bytes 12
  quat9 : Bytes 16
  pQuat6 : Bytes 6
  geomag : Bytes 16
  pressure : Bytes 6
  compassCalibr : Bytes 12
  pedometerTimestamp : BitVec 32
  accelAccuracy : BitVec 16
  gyroAccuracy : BitVec 16
  compassAccuracy : BitVec 16
  pickup : BitVec 16
  activityRecognition : Bytes 8
  secondaryOnOff : Bytes 2
  footer : BitVec 16

/-! ## Byte orders -/

def quat9ByteOrdering : Fin 14 → Fin 16 := ![3, 2, 1, 0, 7, 6, 5, 4, 11, 10, 9, 8, 13, 12]
def quat6ByteOrdering : Fin 12 → Fin 12 := ![3, 2, 1, 0, 7, 6, 5, 4, 11, 10, 9, 8]
def pQuat6ByteOrdering : Fin 6 → Fin 6 := ![1, 0, 3, 2, 5, 4]
def rawGyroByteOrdering : Fin 12 → Fin 12 := ![1, 0, 3, 2, 5, 4, 7, 6, 9, 8, 11, 10]
def activityRecognitionByteOrdering : Fin 6 → Fin 8 := ![0, 1, 5, 4, 3, 2]
def secondaryOnOffByteOrdering : Fin 2 → Fin 2 := ![1, 0]

/-- `Bytes[order[i]] = fifoBytes[i]` for every `i`. -/
def storeBytes {n m : Nat} (order : Fin n → Fin m) (fifoBytes : Bytes n) (bytes : Bytes m) :
    Bytes m :=
  (List.finRange n).foldl (fun bytes i => Function.update bytes (order i) (fifoBytes i)) bytes

/-- `aShort |= ((uint16_t)fifoBytes[i]) << (8 - (i * 8))` for both bytes. -/
def shortOf (fifoBytes : Bytes 2) : BitVec 16 := word16 (fifoBytes 0) (fifoBytes 1)

def wordOf (fifoBytes : Bytes 4) : BitVec 32 :=
  word16 (fifoBytes 0) (fifoBytes 1) ++ word16 (fifoBytes 2) (fifoBytes 3)

/-! ## The parts of a frame -/

def dmpMaximumBytes : Nat := 14

/-- The locals of the decoder and the structure it fills. -/
structure Decoder where
  fifoCount : BitVec 16
  fifoBytes : Bytes dmpMaximumBytes
  data : DmpData

/-- Some bytes of a frame and where they go. -/
structure Part where
  len : Nat
  fits : len ≤ dmpMaximumBytes
  store : Bytes len → DmpData → DmpData

/-- `read_FIFO(pdev, &fifoBytes[0], len)`, the assignments and `fifo_count -= len`. -/
def takePart (part : Part) (d : Decoder) : Io (Read Decoder) := do
  let r ← readFifo fun i : Fin part.len => d.fifoBytes (i.castLE part.fits)
  let fifoBytes : Bytes dmpMaximumBytes :=
    fun i => if hi : i.val < part.len then r.val ⟨i.val, hi⟩ else d.fifoBytes i
  if r.retval ≠ Status.ok then return ⟨r.retval, { d with fifoBytes := fifoBytes }⟩
  return ⟨r.retval, {
    fifoCount := d.fifoCount - BitVec.ofNat 16 part.len
    fifoBytes := fifoBytes
    data := part.store r.val d.data }⟩

/-- Check that a part has arrived, counting the FIFO again if need be, and take it. -/
def readPart (part : Part) (d : Decoder) : Io (Read Decoder) := do
  let counted ←
    if d.fifoCount.toNat < part.len then getFifoCount d.fifoCount
    else pure ⟨Status.ok, d.fifoCount⟩
  let d := { d with fifoCount := counted.val }
  if counted.retval ≠ Status.ok then return ⟨counted.retval, d⟩
  if d.fifoCount.toNat < part.len then return ⟨Status.fifoIncompleteData, d⟩
  takePart part d

/-- Two bytes that make up a number. -/
def shortPart (assign : BitVec 16 → DmpData → DmpData) : Part :=
  ⟨2, by decide, fun fifoBytes => assign (shortOf fifoBytes)⟩

def headerPart : Part := shortPart fun aShort data => { data with header := aShort }
def header2Part : Part := shortPart fun aShort data => { data with header2 := aShort }
def footerPart : Part := shortPart fun aShort data => { data with footer := aShort }

/-- A payload, the bit that announces it and which of the two headers that bit is in. -/
structure Payload where
  header : DmpData → BitVec 16
  bitmap : BitVec 16
  part : Part

def header2Bitmap : BitVec 16 := 0x0008

def accelPayload : Payload := ⟨DmpData.header, 0x8000, 6, by decide, fun fifoBytes data =>
  { data with rawAccel := storeBytes pQuat6ByteOrdering fifoBytes data.rawAccel }⟩

/-- The raw gyro values and the gyro biases. -/
def gyroPayload : Payload := ⟨DmpData.header, 0x4000, 12, by decide, fun fifoBytes data =>
  { data with rawGyro := storeBytes rawGyroByteOrdering fifoBytes data.rawGyro }⟩

def compassPayload : Payload := ⟨DmpData.header, 0x2000, 6, by decide, fun fifoBytes data =>
  { data with compass := storeBytes pQuat6ByteOrdering fifoBytes data.compass }⟩

def alsPayload : Payload := ⟨DmpData.header, 0x1000, 8, by decide, fun fifoBytes data =>
  { data with als := storeBytes id fifoBytes data.als }⟩

def quat6Payload : Payload := ⟨DmpData.header, 0x0800, 12, by decide, fun fifoBytes data =>
  { data with quat6 := storeBytes quat6ByteOrdering fifoBytes data.quat6 }⟩

def quat9Payload : Payload := ⟨DmpData.header, 0x0400, 14, by decide, fun fifoBytes data =>
  { data with quat9 := storeBytes quat9ByteOrdering fifoBytes data.quat9 }⟩

def pQuat6Payload : Payload := ⟨DmpData.header, 0x0200, 6, by decide, fun fifoBytes data =>
  { data with pQuat6 := storeBytes pQuat6ByteOrdering fifoBytes data.pQuat6 }⟩

def geomagPayload : Payload := ⟨DmpData.header, 0x0100, 14, by decide, fun fifoBytes data =>
  { data with geomag := storeBytes quat9ByteOrdering fifoBytes data.geomag }⟩

def pressurePayload : Payload := ⟨DmpData.header, 0x0080, 6, by decide, fun fifoBytes data =>
  { data with pressure := storeBytes id fifoBytes data.pressure }⟩

def compassCalibrPayload : Payload := ⟨DmpData.header, 0x0020, 12, by decide, fun fifoBytes data =>
  { data with compassCalibr := storeBytes quat6ByteOrdering fifoBytes data.compassCalibr }⟩

def stepDetectorPayload : Payload := ⟨DmpData.header, 0x0010, 4, by decide, fun fifoBytes data =>
  { data with pedometerTimestamp := wordOf fifoBytes }⟩

def accelAccuracyPayload : Payload := ⟨DmpData.header2, 0x4000,
  shortPart fun aShort data => { data with accelAccuracy := aShort }⟩

def gyroAccuracyPayload : Payload := ⟨DmpData.header2, 0x2000,
  shortPart fun aShort data => { data with gyroAccuracy := aShort }⟩

def compassAccuracyPayload : Payload := ⟨DmpData.header2, 0x1000,
  shortPart fun aShort data => { data with compassAccuracy := aShort }⟩

def pickupPayload : Payload := ⟨DmpData.header2, 0x0400,
  shortPart fun aShort data => { data with pickup := aShort }⟩

def activityRecogPayload : Payload := ⟨DmpData.header2, 0x0080, 6, by decide, fun fifoBytes data =>
  { data with activityRecognition :=
      storeBytes activityRecognitionByteOrdering fifoBytes data.activityRecognition }⟩

def secondaryOnOffPayload : Payload := ⟨DmpData.header2, 0x0040, 2, by decide, fun fifoBytes data =>
  { data with secondaryOnOff :=
      storeBytes secondaryOnOffByteOrdering fifoBytes data.secondaryOnOff }⟩

/-- The payloads in the order of the decoder.  For `Gyro_Calibr` (0x0040) and, in header 2, `Fsync`
(0x0800) it takes nothing. -/
def payloads : List Payload := [
  accelPayload, gyroPayload, compassPayload, alsPayload, quat6Payload, quat9Payload, pQuat6Payload,
  geomagPayload, pressurePayload, compassCalibrPayload, stepDetectorPayload, accelAccuracyPayload,
  gyroAccuracyPayload, compassAccuracyPayload, pickupPayload, activityRecogPayload,
  secondaryOnOffPayload]

def Payload.announced (payload : Payload) (data : DmpData) : Bool :=
  anyBit (payload.header data) payload.bitmap

def readPayloads : List Payload → Decoder → Io (Read Decoder)
  | [], d => pure ⟨Status.ok, d⟩
  | payload :: rest, d => do
    if payload.announced d.data then
      let r ← readPart payload.part d
      if r.retval ≠ Status.ok then return r
      readPayloads rest r.val
    else
      readPayloads rest d

/-- `header2` is cleared before the test, so that it is 0 when the frame has none. -/
def readHeader2 (d : Decoder) : Io (Read Decoder) :=
  let d := { d with data := { d.data with header2 := 0 } }
  if anyBit d.data.header header2Bitmap then readPart header2Part d else pure ⟨Status.ok, d⟩

/-- The frame after the count at the start; the locals are in `d`. -/
def readFrame (d : Decoder) : Io (Read DmpData) := do
  let r ← takePart headerPart { d with data := { d.data with header := 0 } }
  if r.retval ≠ Status.ok then return ⟨r.retval, r.val.data⟩
  let r ← readHeader2 r.val
  if r.retval ≠ Status.ok then return ⟨r.retval, r.val.data⟩
  let r ← readPayloads payloads r.val
  if r.retval ≠ Status.ok then return ⟨r.retval, r.val.data⟩
  let r ← readPart footerPart r.val
  if r.retval ≠ Status.ok then return ⟨r.retval, r.val.data⟩
  if r.val.fifoCount.toNat > 0 then return ⟨Status.fifoMoreDataAvail, r.val.data⟩
  return ⟨r.retval, r.val.data⟩

/-- `inv_icm20948_read_dmp_data`; `*data` is the argument before the call. -/
def readDmpData (data : DmpData) : Drv (Read DmpData) := do
  let fifoBytes ← uninit dmpMaximumBytes
  let pdev ← get
  if pdev.dmpFirmwareAvailable = false then return ⟨Status.dmpNotSupported, data⟩
  let count ← uninit 2
  let counted ← getFifoCount (shortOf count)
  if counted.retval ≠ Status.ok then return ⟨counted.retval, data⟩
  if counted.val.toNat < headerPart.len then return ⟨Status.fifoNoDataAvail, data⟩
  readFrame ⟨counted.val, fifoBytes, data⟩

end SimuSound.Imu
