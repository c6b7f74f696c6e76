import SimuSound.Imu.DmpMemory

/-!
# DmpSensors — output rates and sensor enables of the DMP
-/

namespace SimuSound.Imu

open Reasoning

/-! ## Addresses in DMP memory -/

def dataOutCtl1Addr : BitVec 16 := 4 * 16
def dataOutCtl2Addr : BitVec 16 := 4 * 16 + 2
def dataIntrCtlAddr : BitVec 16 := 4 * 16 + 12
def motionEventCtlAddr : BitVec 16 := 4 * 16 + 14
def dataRdyStatusAddr : BitVec 16 := 8 * 16 + 10
def gyroSfAddr : BitVec 16 := 19 * 16

def odrCpassCalibr : BitVec 16 := 11 * 16 + 4
def odrGyroCalibr : BitVec 16 := 11 * 16 + 8
def odrPressure : BitVec 16 := 11 * 16 + 12
def odrGeomag : BitVec 16 := 10 * 16 + 0
def odrPQuat6 : BitVec 16 := 10 * 16 + 4
def odrQuat9 : BitVec 16 := 10 * 16 + 8
def odrQuat6 : BitVec 16 := 10 * 16 + 12
def odrAls : BitVec 16 := 11 * 16 + 2
def odrCpass : BitVec 16 := 11 * 16 + 6
def odrGyro : BitVec 16 := 11 * 16 + 10
def odrAccel : BitVec 16 := 11 * 16 + 14

def odrCntrCpassCalibr : BitVec 16 := 9 * 16 + 4
def odrCntrGyroCalibr : BitVec 16 := 9 * 16 + 8
def odrCntrPressure : BitVec 16 := 9 * 16 + 12
def odrCntrGeomag : BitVec 16 := 8 * 16 + 0
def odrCntrPQuat6 : BitVec 16 := 8 * 16 + 4
def odrCntrQuat9 : BitVec 16 := 8 * 16 + 8
def odrCntrQuat6 : BitVec 16 := 8 * 16 + 12
def odrCntrAls : BitVec 16 := 9 * 16 + 2
def odrCntrCpass : BitVec 16 := 9 * 16 + 6
def odrCntrGyro : BitVec 16 := 9 * 16 + 10
def odrCntrAccel : BitVec 16 := 9 * 16 + 14

/-- The cases of the switch in `set_dmp_sensor_period`: a register, whose address is also its value
in `enum DMP_ODR_Registers`, and its counter. -/
def odrTable : List (BitVec 16 × BitVec 16) := [
  (odrCpassCalibr, odrCntrCpassCalibr), (odrGyroCalibr, odrCntrGyroCalibr),
  (odrPressure, odrCntrPressure), (odrGeomag, odrCntrGeomag), (odrPQuat6, odrCntrPQuat6),
  (odrQuat9, odrCntrQuat9), (odrQuat6, odrCntrQuat6), (odrAls, odrCntrAls),
  (odrCpass, odrCntrCpass), (odrGyro, odrCntrGyro), (odrAccel, odrCntrAccel)]

def odrRegs (odrReg : BitVec 32) : Option (BitVec 16 × BitVec 16) :=
  odrTable.find? fun regs => regs.1.setWidth 32 = odrReg

/-- The switch over `odr_reg`: what it leaves in `result` and `result2`. -/
def writeSensorPeriod (odrReg : BitVec 32) (interval : BitVec 16) : Drv (Status × Status) :=
  match odrRegs odrReg with
  | none => pure (Status.invalDMPRegister, Status.ok)
  | some (reg, cntr) => do
    let result ← writeMems reg (some [hiByte interval, loByte interval])
    let result2 ← writeMems cntr (some [0x00, 0x00])
    pure (result, result2)

def setDmpSensorPeriod (odrReg : BitVec 32) (interval : BitVec 16) : Drv Status := do
  let pdev ← get
  if pdev.dmpFirmwareAvailable = false then return Status.dmpNotSupported
  let result ← sleep false
  if result ≠ Status.ok then return result
  let result ← lowPower false
  if result ≠ Status.ok then return result
  let results ← writeSensorPeriod odrReg interval
  -- overwrites the first of the two results
  let result ← lowPower true
  if result ≠ Status.ok then return result
  if results.2 > result then return results.2
  return result

/-! ## Sensor enables -/

def androidSensorNumMax : Nat := 44

/-- `inv_androidSensor_to_control_bits`; unsupported sensors are `0xFFFF`. -/
def androidSensorToControlBits : List (BitVec 16) := [
  0xFFFF, 0x8008, 0x0028, 0x0408, 0x4048, 0x1008, 0x0088, 0xFFFF, 0xFFFF, 0x0808, 0x8808,
  0x0408, 0xFFFF, 0xFFFF, 0x2008, 0x0808, 0x4008, 0x0000, 0x0018, 0x0010, 0x0108, 0xFFFF,
  0xFFFF, 0x8008, 0x0028, 0x0408, 0x4048, 0x1008, 0x0088, 0x0808, 0x8808, 0x0408, 0xFFFF,
  0xFFFF, 0x2008, 0x0808, 0x4008, 0x0018, 0x0010, 0x0108, 0xFFFF, 0x0000, 0x8008, 0x4048]

/-- `sensor_type_2_android_sensor`, by the position of the sensor in `enum inv_icm20948_sensor`. -/
def sensorType2AndroidSensor (sensor : BitVec 32) : Nat :=
  let table := [1, 4, 42, 43, 14, 16, 47, 18, 19, 15, 11, 20, 2, 17, 46, 41, 9, 10, 3, 45]
  table.getD sensor.toNat androidSensorNumMax

/-- An entry of the table; past its end the code reads whatever lies there. -/
def controlBits (index : Nat) : Io (BitVec 16) :=
  match androidSensorToControlBits[index]? with
  | some bits => pure bits
  | none => do
    let garbage ← uninit 2
    pure (garbage 1 ++ garbage 0)

/-- `1L << i` -/
def sensorBit (i : Nat) : BitVec 32 := 1#32 <<< i

def maskOf (bits : List Nat) : BitVec 32 := bits.foldl (fun mask i => mask ||| sensorBit i) 0

def invNeedsAccelMask : BitVec 32 :=
  maskOf [1, 3, 9, 10, 11, 15, 17, 18, 19, 20, 23, 25, 29, 30, 31]
def invNeedsGyroMask : BitVec 32 := maskOf [3, 4, 9, 10, 11, 15, 16, 25, 26, 29, 30, 31]
def invNeedsCompassMask : BitVec 32 := maskOf [2, 3, 11, 14, 20, 24, 25, 31]
def invNeedsAccelMask1 : BitVec 32 := maskOf [3, 5, 6, 7, 9, 10]
def invNeedsGyroMask1 : BitVec 32 := maskOf [3, 4, 11]
def invNeedsCompassMask1 : BitVec 32 := maskOf [2, 7]

-- DMP_Data_Ready_Status_Register_Bits
def dataReadyGyro : BitVec 16 := 0x0001
def dataReadyAccel : BitVec 16 := 0x0002
def dataReadySecondaryCompass : BitVec 16 := 0x0008

-- DMP_Data_Output_Control_1_Register_Bits
def outputControl1StepInd0 : BitVec 16 := 0x0001
def outputControl1StepInd1 : BitVec 16 := 0x0002
def outputControl1StepInd2 : BitVec 16 := 0x0004
def outputControl1StepDetector : BitVec 16 := 0x0010
def outputControl1CompassCalibr : BitVec 16 := 0x0020
def outputControl1GyroCalibr : BitVec 16 := 0x0040
def outputControl1Geomag : BitVec 16 := 0x0100
def outputControl1Quat9 : BitVec 16 := 0x0400
def outputControl1Compass : BitVec 16 := 0x2000
def outputControl1Gyro : BitVec 16 := 0x4000
def outputControl1Accel : BitVec 16 := 0x8000

-- DMP_Data_Output_Control_2_Register_Bits
def outputControl2CompassAccuracy : BitVec 16 := 0x1000
def outputControl2GyroAccuracy : BitVec 16 := 0x2000
def outputControl2AccelAccuracy : BitVec 16 := 0x4000

-- DMP_Motion_Event_Control_Register_Bits
def motionEventGeomag : BitVec 16 := 0x0008
def motionEvent9axis : BitVec 16 := 0x0040
def motionEventCompassCalibr : BitVec 16 := 0x0080
def motionEventGyroCalibr : BitVec 16 := 0x0100
def motionEventAccelCalibr : BitVec 16 := 0x0200
def motionEventPedometerInterrupt : BitVec 16 := 0x2000

/-- `(a & mask) > 0` -/
def anyBit {w : Nat} (a mask : BitVec w) : Bool := a &&& mask ≠ 0

/-- Sets or clears the bit of one sensor among sensors 0-31. -/
def switchBit (enabled : BitVec 32) (i : Nat) (state : Int) : BitVec 32 :=
  if state = 0 then enabled &&& ~~~(sensorBit i) else enabled ||| sensorBit i

/-- Records in `_enabled_Android_0` or `_enabled_Android_1` that a sensor is on or off. -/
def Device.switchSensor (pdev : Device) (androidSensor : Nat) (state : Int) : Device :=
  if androidSensor < 32 then
    { pdev with enabledAndroid0 := switchBit pdev.enabledAndroid0 androidSensor state }
  else
    { pdev with enabledAndroid1 := switchBit pdev.enabledAndroid1 (androidSensor - 32) state }

/-- The same for the sensor's interrupt. -/
def Device.switchSensorInt (pdev : Device) (androidSensor : Nat) (state : Int) : Device :=
  if androidSensor < 32 then
    { pdev with enabledAndroidIntr0 := switchBit pdev.enabledAndroidIntr0 androidSensor state }
  else
    { pdev with
      enabledAndroidIntr1 := switchBit pdev.enabledAndroidIntr1 (androidSensor - 32) state }

/-- The accumulators of the loop that rebuilds the control values from the enabled sets. -/
structure Rebuild where
  delta : BitVec 16
  dataRdyStatus : BitVec 16
  invEventControl : BitVec 16

/-- `delta |= inv_androidSensor_to_control_bits[..]` for sensor `i` and sensor `i + 32`. -/
def rebuildDelta (enabled0 enabled1 : BitVec 32) (delta : BitVec 16) (i : Nat) :
    Io (BitVec 16) := do
  let sensorMask := sensorBit i
  let bits0 ← if anyBit enabled0 sensorMask then controlBits i else pure 0
  let bits1 ← if anyBit enabled1 sensorMask then controlBits (i + 32) else pure 0
  pure (delta ||| bits0 ||| bits1)

/-- One turn of the loop in `enable_dmp_sensor`. -/
def rebuildStep (enabled0 enabled1 : BitVec 32) (acc : Rebuild) (i : Nat) : Io Rebuild := do
  let delta ← rebuildDelta enabled0 enabled1 acc.delta i
  let sensorMask := sensorBit i
  -- the masks are compared with the bit alone, whether or not the sensor is enabled
  let accel := anyBit sensorMask invNeedsAccelMask || anyBit sensorMask invNeedsAccelMask1
  let gyro := anyBit sensorMask invNeedsGyroMask || anyBit sensorMask invNeedsGyroMask1
  let compass := anyBit sensorMask invNeedsCompassMask || anyBit sensorMask invNeedsCompassMask1
  pure {
    delta := delta
    dataRdyStatus := acc.dataRdyStatus ||| (if accel then dataReadyAccel else 0) |||
      (if gyro then dataReadyGyro else 0) ||| (if compass then dataReadySecondaryCompass else 0)
    invEventControl := acc.invEventControl ||| (if accel then motionEventAccelCalibr else 0) |||
      (if gyro then motionEventGyroCalibr else 0) |||
      (if compass then motionEventCompassCalibr else 0) }

/-- The loop of `enable_dmp_sensor` over `i = 0 .. 31`. -/
def rebuild (enabled0 enabled1 : BitVec 32) : Io Rebuild :=
  (List.range 32).foldlM (rebuildStep enabled0 enabled1) ⟨0, 0, 0⟩

/-- The loop of `enable_dmp_sensor_int`. -/
def rebuildIntr (enabled0 enabled1 : BitVec 32) : Io (BitVec 16) :=
  (List.range 32).foldlM (rebuildDelta enabled0 enabled1) 0

/-- The accuracy data to ask for through header 2. -/
def accuracyBits (delta : BitVec 16) : BitVec 16 :=
  (if anyBit delta outputControl1Accel then outputControl2AccelAccuracy else 0) |||
  (if anyBit delta outputControl1GyroCalibr || anyBit delta outputControl1Gyro then
    outputControl2GyroAccuracy else 0) |||
  (if anyBit delta outputControl1CompassCalibr || anyBit delta outputControl1Compass ||
      anyBit delta outputControl1Quat9 || anyBit delta outputControl1Geomag then
    outputControl2CompassAccuracy else 0)

/-- The bits of the motion event control register that the requested data needs. -/
def eventBits (delta : BitVec 16) : BitVec 16 :=
  (if anyBit delta outputControl1Quat9 then motionEvent9axis else 0) |||
  (if anyBit delta outputControl1StepDetector || anyBit delta outputControl1StepInd0 ||
      anyBit delta outputControl1StepInd1 || anyBit delta outputControl1StepInd2 then
    motionEventPedometerInterrupt else 0) |||
  (if anyBit delta outputControl1Geomag then motionEventGeomag else 0)

def writeMems16 (reg value : BitVec 16) : Drv Status :=
  writeMems reg (some [hiByte value, loByte value])

def enableDmpSensor (sensor : BitVec 32) (state : Int) : Drv Status := do
  let pdev ← get
  if pdev.dmpFirmwareAvailable = false then return Status.dmpNotSupported
  let androidSensor := sensorType2AndroidSensor sensor
  if androidSensor ≥ androidSensorNumMax then return Status.sensorNotSupported
  let delta ← controlBits androidSensor
  if delta = 0xFFFF then return Status.sensorNotSupported
  modify fun pdev => pdev.switchSensor androidSensor state
  let pdev ← get
  let acc ← rebuild pdev.enabledAndroid0 pdev.enabledAndroid1
  let result ← sleep false
  if result ≠ Status.ok then return result
  let result ← lowPower false
  if result ≠ Status.ok then return result
  let delta2 := accuracyBits acc.delta
  modify fun pdev => { pdev with dataOutCtl1 := acc.delta }
  let result ← writeMems16 dataOutCtl1Addr acc.delta
  if result ≠ Status.ok then return result
  modify fun pdev => { pdev with dataOutCtl2 := delta2 }
  let result ← writeMems16 dataOutCtl2Addr delta2
  if result ≠ Status.ok then return result
  modify fun pdev => { pdev with dataRdyStatus := acc.dataRdyStatus }
  let result ← writeMems16 dataRdyStatusAddr acc.dataRdyStatus
  if result ≠ Status.ok then return result
  let invEventControl := acc.invEventControl ||| eventBits acc.delta
  modify fun pdev => { pdev with motionEventCtl := invEventControl }
  let result ← writeMems16 motionEventCtlAddr invEventControl
  if result ≠ Status.ok then return result
  lowPower true

def enableDmpSensorInt (sensor : BitVec 32) (state : Int) : Drv Status := do
  let pdev ← get
  if pdev.dmpFirmwareAvailable = false then return Status.dmpNotSupported
  let androidSensor := sensorType2AndroidSensor sensor
  -- the sibling function compares with `>=`
  if androidSensor > androidSensorNumMax then return Status.sensorNotSupported
  let delta ← controlBits androidSensor
  if delta = 0xFFFF then return Status.sensorNotSupported
  modify fun pdev => pdev.switchSensorInt androidSensor state
  let pdev ← get
  let delta ← rebuildIntr pdev.enabledAndroidIntr0 pdev.enabledAndroidIntr1
  let result ← sleep false
  if result ≠ Status.ok then return result
  let result ← lowPower false
  if result ≠ Status.ok then return result
  modify fun pdev => { pdev with dataIntrCtl := delta }
  -- overwritten by what `low_power` returns
  let _result ← writeMems16 dataIntrCtlAddr delta
  lowPower true

/-! ## Gyro scaling -/

def magicConstant : BitVec 64 := 264446880937391
def magicConstantScale : BitVec 64 := 100000

/-- `ResultLL` for a correction `pll` and a divider `div`, in 64-bit unsigned arithmetic; the gyro
level is always 4. -/
def gyroSfResult (pll div : Byte) : BitVec 64 :=
  let divisor : BitVec 64 :=
    if pll.getLsbD 7 then 1270 - (pll &&& 0x7F).setWidth 64 else 1270 + pll.setWidth 64
  magicConstant * (1#64 <<< 4) * (1 + div.setWidth 64) / divisor / magicConstantScale

def gyroSfOf (pll div : Byte) : BitVec 32 :=
  let resultLL := gyroSfResult pll div
  if resultLL > 0x7FFFFFFF then 0x7FFFFFFF else resultLL.setWidth 32

def setGyroSf (div : Byte) (_gyroLevel : Int) : Drv Status := do
  let pdev ← get
  if pdev.dmpFirmwareAvailable = false then return Status.dmpNotSupported
  let garbage ← uninitByte
  let _ ← setBank 1
  let r ← readByte agb1RegTimebaseCorrectionPll garbage
  if r.retval ≠ Status.ok then return r.retval
  modify fun pdev => { pdev with gyroSFpll := r.val }
  let gyroSf := gyroSfOf r.val div
  modify fun pdev => { pdev with gyroSF := gyroSf }
  writeMems gyroSfAddr (some [(gyroSf >>> 24).setWidth 8, (gyroSf >>> 16).setWidth 8,
    (gyroSf >>> 8).setWidth 8, (gyroSf &&& 0xff).setWidth 8])

/-- The scaling changes the remembered bank and what is recorded of the scaling only. -/
theorem leaves_setGyroSf {δ : Type} {f : Device → δ}
    (hf : ∀ pdev bank, f { pdev with lastMemsBank := bank } = f pdev)
    (hpll : ∀ pdev pll, f { pdev with gyroSFpll := pll } = f pdev)
    (hsf : ∀ pdev sf, f { pdev with gyroSF := sf } = f pdev) (div : Byte) (gyroLevel : Int) :
    Prog.Leaves f (setGyroSf div gyroLevel) := by
  refine Prog.leaves_get.bind fun _ => .ite (Prog.leaves_pure _) ?_
  refine (Prog.leaves_lift _).bind fun _ => (Prog.leaves_lift _).bind fun _ => ?_
  refine (Prog.leaves_lift _).bind fun _ => .ite (Prog.leaves_pure _) ?_
  refine (Prog.leaves_modify fun _ => hpll _ _).bind fun _ => ?_
  refine (Prog.leaves_modify fun _ => hsf _ _).bind fun _ => ?_
  exact leaves_writeMems hf _ _

end SimuSound.Imu
