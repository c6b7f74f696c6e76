import SimuSound.Imu.DmpFifo
import SimuSound.Imu.I2cMaster
import SimuSound.Imu.Interrupts
import SimuSound.Imu.Sensors

/-!
# Object — the C++ object over the driver

`ICM_20948_SPI` and the class it derives from.  Most methods call the driver function of the same
name on `_device` and store its result in the member `status`.  Debug output and sleeping are left
out, and so is the magnetometer's part of `agmt`.
-/

namespace SimuSound.Imu

open Reasoning

structure Icm20948 where
  device : Device
  status : Status
  agmt : Agmt
  spiHandle : Int

/-- An object in static storage before its first method is called. -/
def staticObject : Icm20948 where
  device := ⟨false, false, 0, 0, 0, 0, 0, 0, 0, 0, 0, 0, 0, 0⟩
  status := 0
  agmt := ⟨⟨0, 0, 0⟩, ⟨0, 0, 0⟩, 0, ⟨0, 0⟩⟩
  spiHandle := 0

abbrev Method := StateT Icm20948 Io

namespace Icm20948

/-- `status = result; return status;` -/
def report (result : Status) : Method Status := do
  modify fun icm => { icm with status := result }
  return result

/-- A call of a driver function on `_device`. -/
def onDevice {α : Type} (p : Drv α) : Method α := fun icm => do
  let r ← p.run icm.device
  pure (r.1, { icm with device := r.2 })

/-! ## Device level -/

def setBank (bank : Byte) : Method Status := do report (← Imu.setBank bank)
def swReset : Method Status := do report (← Imu.swReset)
def sleep (on : Bool) : Method Status := do report (← Imu.sleep on)
def lowPower (on : Bool) : Method Status := do report (← Imu.lowPower on)
def setClockSource (source : BitVec 32) : Method Status := do report (← Imu.setClockSource source)
def checkId : Method Status := do report (← Imu.checkId)

def dataReady : Method Bool := do
  let status ← report (← Imu.dataReady)
  return status = Status.ok

def getWhoAmI : Method Byte := do
  let r ← Imu.getWhoAmI 0x00
  let _ ← report r.retval
  return r.val

def isConnected : Method Bool := do
  let status ← report (← checkId)
  return status = Status.ok

def getAgmt : Method Agmt := do
  let icm ← get
  let r ← Imu.getAgmt (some icm.agmt)
  let agmt := r.val.getD icm.agmt
  modify fun icm => { icm with agmt := agmt }
  let _ ← report r.retval
  return agmt

/-! ## Internal sensors -/

def setSampleMode (sensorIdBm lpConfigCycleMode : Byte) : Method Status := do
  report (← Imu.setSampleMode (sensorIdBm.setWidth 32) (lpConfigCycleMode.setWidth 32))

def setFullScale (sensorIdBm : Byte) (fss : Fss) : Method Status := do
  report (← Imu.setFullScale (sensorIdBm.setWidth 32) fss)

def setDlpfCfg (sensorIdBm : Byte) (cfg : Dlpcfg) : Method Status := do
  report (← Imu.setDlpfCfg (sensorIdBm.setWidth 32) cfg)

def enableDlpf (sensorIdBm : Byte) (enable : Bool) : Method Status := do
  report (← Imu.enableDlpf (sensorIdBm.setWidth 32) enable)

def setSampleRate (sensorIdBm : Byte) (smplrt : Smplrt) : Method Status := do
  report (← Imu.setSampleRate (sensorIdBm.setWidth 32) smplrt)

/-! ## Interrupts -/

def clearInterrupts : Method Status := do
  let intStat ← uninitByte
  let intStat1 ← uninitByte
  let status ← report (← Imu.setBank 0)
  if status ≠ Status.ok then return status
  let r ← readByte agb0RegIntStatus intStat
  let status ← report r.retval
  if status ≠ Status.ok then return status
  let r ← readByte agb0RegIntStatus1 intStat1
  report r.retval

/-- The read, set and write of the methods that configure the INT pin. -/
def cfgIntPin (field : BitField 8) (setting : Bool) : Method Status := do
  let reg ← uninitByte
  let r ← intPinCfg none (some reg)
  let status ← report r.retval
  if status ≠ Status.ok then return status
  let w ← intPinCfg (some (field.set (bit setting) (r.val.getD reg))) none
  report w.retval

def cfgIntActiveLow (activeLow : Bool) : Method Status := cfgIntPin IntPinCfg.int1Actl activeLow
def cfgIntOpenDrain (openDrain : Bool) : Method Status := cfgIntPin IntPinCfg.int1Open openDrain
def cfgIntLatch (latching : Bool) : Method Status := cfgIntPin IntPinCfg.int1LatchEn latching
def cfgIntAnyReadToClear (enabled : Bool) : Method Status :=
  cfgIntPin IntPinCfg.intAnyrd2clear enabled
def cfgFsyncActiveLow (activeLow : Bool) : Method Status := cfgIntPin IntPinCfg.actlFsync activeLow
def cfgFsyncIntMode (interruptMode : Bool) : Method Status :=
  cfgIntPin IntPinCfg.fsyncIntModeEn interruptMode

/-- The read, set and write with readback of the methods that enable interrupts; `confirmed` is the
test made on what was read back. -/
def intEnableWith (change : IntEnables → IntEnables) (confirmed : IntEnables → Bool) :
    Method Status := do
  let garbage ← uninit 4
  let en := IntEnables.ofRegs (garbage 0) (garbage 1) (garbage 2) (garbage 3)
  let r ← intEnable none (some en)
  let status ← report r.retval
  if status ≠ Status.ok then return status
  let en := change (r.val.getD en)
  let w ← intEnable (some en) (some en)
  let status ← report w.retval
  if status ≠ Status.ok then return status
  if confirmed (w.val.getD en) then return status
  report Status.err

def intEnableI2C (enable : Bool) : Method Status :=
  intEnableWith (fun en => { en with i2cMstIntEn := enable }) fun en => en.i2cMstIntEn = enable
def intEnableDmp (enable : Bool) : Method Status :=
  intEnableWith (fun en => { en with dmpInt1En := enable }) fun en => en.dmpInt1En = enable
def intEnablePll (enable : Bool) : Method Status :=
  intEnableWith (fun en => { en with pllRdyEn := enable }) fun en => en.pllRdyEn = enable
def intEnableWom (enable : Bool) : Method Status :=
  intEnableWith (fun en => { en with womIntEn := enable }) fun en => en.womIntEn = enable
def intEnableWof (enable : Bool) : Method Status :=
  intEnableWith (fun en => { en with regWofEn := enable }) fun en => en.regWofEn = enable
def intEnableRawDataReady (enable : Bool) : Method Status :=
  intEnableWith (fun en => { en with rawData0RdyEn := enable }) fun en => en.rawData0RdyEn = enable

/-- The two FIFO methods do not check what they read back. -/
def intEnableOverflowFifo (bmEnable : Byte) : Method Status :=
  intEnableWith (fun en => { en with
    fifoOverflowEn0 := bmEnable.getLsbD 0, fifoOverflowEn1 := bmEnable.getLsbD 1
    fifoOverflowEn2 := bmEnable.getLsbD 2, fifoOverflowEn3 := bmEnable.getLsbD 3
    fifoOverflowEn4 := bmEnable.getLsbD 4 }) fun _ => true

def intEnableWatermarkFifo (bmEnable : Byte) : Method Status :=
  intEnableWith (fun en => { en with
    fifoWmEn0 := bmEnable.getLsbD 0, fifoWmEn1 := bmEnable.getLsbD 1
    fifoWmEn2 := bmEnable.getLsbD 2, fifoWmEn3 := bmEnable.getLsbD 3
    fifoWmEn4 := bmEnable.getLsbD 4 }) fun _ => true

def womThreshold (threshold : Byte) : Method Status := do
  let thr ← uninitByte
  let r ← Imu.womThreshold none (some thr)
  let status ← report r.retval
  if status ≠ Status.ok then return status
  let w ← Imu.womThreshold (some threshold) (some threshold)
  let status ← report w.retval
  if status ≠ Status.ok then return status
  if w.val.getD threshold ≠ threshold then report Status.err else return status

/-! ## Auxiliary I2C -/

def i2cMasterPassthrough (passthrough : Bool) : Method Status := do
  report (← Imu.i2cMasterPassthrough passthrough)
def i2cMasterEnable (enable : Bool) : Method Status := do report (← Imu.i2cMasterEnable enable)
def i2cMasterReset : Method Status := do report (← Imu.i2cMasterReset)

def i2cControllerConfigurePeripheral (peripheral : Byte) (c : PeriphConfig) : Method Status := do
  report (← Imu.i2cControllerConfigurePeripheral peripheral c)

/-- The older name of the same method, without `dataOut`. -/
def i2cMasterConfigureSlave (peripheral : Byte) (c : PeriphConfig) : Method Status :=
  i2cControllerConfigurePeripheral peripheral { c with dataOut := 0 }

def i2cControllerPeriph4Transaction (addr reg : Byte) (data : List Byte) (rw sendRegAddr : Bool) :
    Method (Read (List Byte)) := do
  let r ← i2cControllerPeriph4Txn addr reg data rw sendRegAddr
  let status ← report r.retval
  return ⟨status, r.val⟩

def i2cMasterSLV4Transaction (addr reg : Byte) (data : List Byte) (rw sendRegAddr : Bool) :
    Method (Read (List Byte)) :=
  i2cControllerPeriph4Transaction addr reg data rw sendRegAddr

def i2cMasterSingleW (addr reg data : Byte) : Method Status := do
  report (← Imu.i2cMasterSingleW addr reg data)

def i2cMasterSingleR (addr reg : Byte) : Method Byte := do
  let r ← Imu.i2cMasterSingleR addr reg 0
  let _ ← report r.retval
  return r.val

/-! ## Default setup -/

def internalAccGyr : Byte := 3

def startupDefault (minimal : Bool) : Method Status := do
  let retval ← swReset
  if retval ≠ Status.ok then return ← report retval
  let retval ← checkId
  if retval ≠ Status.ok then return ← report retval
  let retval ← sleep false
  if retval ≠ Status.ok then return ← report retval
  let retval ← setFullScale internalAccGyr ⟨gpm16, dps2000⟩
  if retval ≠ Status.ok then return ← report retval
  if minimal then return (← get).status
  let retval ← setSampleMode internalAccGyr (sampleModeContinuous.setWidth 8)
  if retval ≠ Status.ok then return ← report retval
  -- acc_d473bw_n499bw and gyr_d361bw4_n376bw5
  let retval ← setDlpfCfg internalAccGyr ⟨7, 7⟩
  if retval ≠ Status.ok then return ← report retval
  let retval ← enableDlpf 1 false
  if retval ≠ Status.ok then return ← report retval
  let retval ← enableDlpf 2 false
  if retval ≠ Status.ok then return ← report retval
  return (← get).status

/-! ## Direct access -/

def read (reg : Byte) {len : Nat} (pdata : Bytes len) : Method (Read (Bytes len)) := do
  let r ← executeR reg pdata
  let status ← report r.retval
  return ⟨status, r.val⟩

def write (reg : Byte) (pdata : List Byte) : Method Status := do report (← executeW reg pdata)

/-! ## Magnetometer -/

def magI2cAddr : Byte := 0x0C
def magWhoAmI : BitVec 16 := 0x4809
def ak09916RegWia1 : Byte := 0x00
def ak09916RegWia2 : Byte := 0x01
def ak09916RegRsv2 : Byte := 0x03
def ak09916RegSt1 : Byte := 0x10
def ak09916RegCntl2 : Byte := 0x31
def ak09916RegCntl3 : Byte := 0x32
def ak09916ModeSingle : Byte := 0x01
def ak09916ModeCont100hz : Byte := 0x08

def readMag (reg : Byte) : Method Byte := i2cMasterSingleR magI2cAddr reg

def writeMag (reg pdata : Byte) : Method Status := do
  report (← i2cMasterSingleW magI2cAddr reg pdata)

def resetMag : Method Status := do report (← i2cMasterSingleW magI2cAddr ak09916RegCntl3 1)

def magWhoIAm : Method Status := do
  let whoiam1 ← readMag ak09916RegWia1
  let retval := (← get).status
  if retval ≠ Status.ok then return retval
  let whoiam2 ← readMag ak09916RegWia2
  let retval := (← get).status
  if retval ≠ Status.ok then return retval
  if whoiam1 = hiByte magWhoAmI ∧ whoiam2 = loByte magWhoAmI then report Status.ok
  else report Status.wrongID

def maxMagnetometerStarts : Nat := 10

/-- The loop of `startupMagnetometer` with `left` tries before it gives up; returns `tries`. -/
def magStarts : Nat → Method Nat
  | 0 => pure maxMagnetometerStarts
  | left + 1 => do
    let retval ← magWhoIAm
    if retval = Status.ok then
      return maxMagnetometerStarts - left
    else
      let _ ← i2cMasterReset
      magStarts left

def startupMagnetometer (minimal : Bool) : Method Status := do
  let _ ← i2cMasterPassthrough false
  let _ ← i2cMasterEnable true
  let _ ← resetMag
  let tries ← magStarts maxMagnetometerStarts
  -- also when the last try was the one that succeeded
  if tries = maxMagnetometerStarts then return ← report Status.wrongID
  if minimal then return (← get).status
  -- both fields of `reg` are assigned
  let retval ← writeMag ak09916RegCntl2 ak09916ModeCont100hz
  if retval ≠ Status.ok then return ← report retval
  let retval ← i2cControllerConfigurePeripheral 0
    ⟨magI2cAddr, ak09916RegSt1, 9, true, true, false, false, false, 0⟩
  if retval ≠ Status.ok then return ← report retval
  return (← get).status

/-! ## FIFO -/

def enableFifo (enable : Bool) : Method Status := do report (← Imu.enableFifo enable)
def resetFifo : Method Status := do report (← Imu.resetFifo)
def setFifoMode (snapshot : Bool) : Method Status := do report (← Imu.setFifoMode snapshot)

def getFifoCount (count : BitVec 16) : Method (Read (BitVec 16)) := do
  let r ← Imu.getFifoCount count
  let status ← report r.retval
  return ⟨status, r.val⟩

def readFifo {len : Nat} (data : Bytes len) : Method (Read (Bytes len)) := do
  let r ← Imu.readFifo data
  let status ← report r.retval
  return ⟨status, r.val⟩

/-! ## DMP -/

/-- `if (_device._dmp_firmware_available == true) ... return unsupported;` -/
def ifDmpElse {α : Type} (unsupported : α) (p : Method α) : Method α := do
  if (← get).device.dmpFirmwareAvailable then p else return unsupported

def ifDmp (p : Method Status) : Method Status := ifDmpElse Status.dmpNotSupported p

/-- The same for a method that also fills a buffer or structure of the caller. -/
def ifDmpRead {α : Type} (dest : α) (p : Method (Read α)) : Method (Read α) :=
  ifDmpElse ⟨Status.dmpNotSupported, dest⟩ p

def enableDmp (enable : Bool) : Method Status := ifDmp do report (← Imu.enableDmp enable)

/-- The only one that does not ask whether the DMP is there. -/
def resetDmp : Method Status := do report (← Imu.resetDmp)

def loadDmpFirmware (build : Build) : Method Status := ifDmp do
  report (← onDevice (firmwareLoad build))

def setDmpStartAddress (address : BitVec 16) : Method Status := ifDmp do
  report (← onDevice (Imu.setDmpStartAddress address))

def enableDmpSensor (sensor : BitVec 32) (enable : Bool) : Method Status := ifDmp do
  report (← onDevice (Imu.enableDmpSensor sensor (if enable then 1 else 0)))

def enableDmpSensorInt (sensor : BitVec 32) (enable : Bool) : Method Status := ifDmp do
  report (← onDevice (Imu.enableDmpSensorInt sensor (if enable then 1 else 0)))

def writeDmpMems (reg : BitVec 16) (data : Option (List Byte)) : Method Status := ifDmp do
  report (← onDevice (writeMems reg data))

def readDmpMems (reg : BitVec 16) (data : Option (List Byte)) :
    Method (Read (Option (List Byte))) := ifDmpRead data do
  let r ← onDevice (readMems reg data)
  let status ← report r.retval
  return ⟨status, r.val⟩

/-- The driver takes the interval as a `uint16_t`. -/
def setDmpOdrRate (odrReg interval : BitVec 32) : Method Status := ifDmp do
  report (← onDevice (setDmpSensorPeriod odrReg (interval.setWidth 16)))

def readDmpDataFromFifo (data : DmpData) : Method (Read DmpData) := ifDmpRead data do
  let r ← onDevice (readDmpData data)
  let status ← report r.retval
  return ⟨status, r.val⟩

def setGyroSf (div : Byte) (gyroLevel : Int) : Method Status := ifDmp do
  report (← onDevice (Imu.setGyroSf div gyroLevel))

/-! ## DMP set-up -/

def accScale : BitVec 16 := 30 * 16 + 0
def accScale2 : BitVec 16 := 79 * 16 + 4
def cpassMtx00 : BitVec 16 := 23 * 16
def cpassMtx01 : BitVec 16 := 23 * 16 + 4
def cpassMtx02 : BitVec 16 := 23 * 16 + 8
def cpassMtx10 : BitVec 16 := 23 * 16 + 12
def cpassMtx11 : BitVec 16 := 24 * 16
def cpassMtx12 : BitVec 16 := 24 * 16 + 4
def cpassMtx20 : BitVec 16 := 24 * 16 + 8
def cpassMtx21 : BitVec 16 := 24 * 16 + 12
def cpassMtx22 : BitVec 16 := 25 * 16
def b2sMtx00 : BitVec 16 := 208 * 16
def b2sMtx01 : BitVec 16 := 208 * 16 + 4
def b2sMtx02 : BitVec 16 := 208 * 16 + 8
def b2sMtx10 : BitVec 16 := 208 * 16 + 12
def b2sMtx11 : BitVec 16 := 209 * 16
def b2sMtx12 : BitVec 16 := 209 * 16 + 4
def b2sMtx20 : BitVec 16 := 209 * 16 + 8
def b2sMtx21 : BitVec 16 := 209 * 16 + 12
def b2sMtx22 : BitVec 16 := 210 * 16
def gyroFullscale : BitVec 16 := 72 * 16 + 12
def accelOnlyGain : BitVec 16 := 16 * 16 + 12
def accelAlphaVar : BitVec 16 := 91 * 16
def accelAVar : BitVec 16 := 92 * 16
def accelCalRate : BitVec 16 := 94 * 16 + 4
def cpassTimeBuffer : BitVec 16 := 112 * 16 + 14

def mountMultiplierZero : List Byte := [0x00, 0x00, 0x00, 0x00]
def mountMultiplierPlus : List Byte := [0x09, 0x99, 0x99, 0x99]
def mountMultiplierMinus : List Byte := [0xF6, 0x66, 0x66, 0x67]
def b2sMountMultiplierPlus : List Byte := [0x40, 0x00, 0x00, 0x00]

/-- The `writeDMPmems` calls between the FIFO priority and the gyro scaling. -/
def mountWrites : List (BitVec 16 × List Byte) := [
  (accScale, [0x04, 0x00, 0x00, 0x00]), (accScale2, [0x00, 0x04, 0x00, 0x00]),
  (cpassMtx00, mountMultiplierPlus), (cpassMtx01, mountMultiplierZero),
  (cpassMtx02, mountMultiplierZero), (cpassMtx10, mountMultiplierZero),
  (cpassMtx11, mountMultiplierMinus), (cpassMtx12, mountMultiplierZero),
  (cpassMtx20, mountMultiplierZero), (cpassMtx21, mountMultiplierZero),
  (cpassMtx22, mountMultiplierMinus),
  (b2sMtx00, b2sMountMultiplierPlus), (b2sMtx01, mountMultiplierZero),
  (b2sMtx02, mountMultiplierZero), (b2sMtx10, mountMultiplierZero),
  (b2sMtx11, b2sMountMultiplierPlus), (b2sMtx12, mountMultiplierZero),
  (b2sMtx20, mountMultiplierZero), (b2sMtx21, mountMultiplierZero),
  (b2sMtx22, b2sMountMultiplierPlus)]

/-- The `writeDMPmems` calls between the gyro scaling and the last step. -/
def scaleWrites : List (BitVec 16 × List Byte) := [
  (gyroFullscale, [0x10, 0x00, 0x00, 0x00]), (accelOnlyGain, [0x03, 0xA4, 0x92, 0x49]),
  (accelAlphaVar, [0x34, 0x92, 0x49, 0x25]), (accelAVar, [0x0B, 0x6D, 0xB6, 0xDB]),
  (accelCalRate, [0x00, 0x00])]

def writeAll (writes : List (BitVec 16 × List Byte)) : List (Method Status) :=
  writes.map fun w => writeDmpMems w.1 (some w.2)

/-- The calls of `initializeDMP` before the last one. -/
def dmpSteps (build : Build) : List (Method Status) := [
    i2cControllerConfigurePeripheral 0
      ⟨magI2cAddr, ak09916RegRsv2, 10, true, true, false, true, true, 0⟩,
    i2cControllerConfigurePeripheral 1
      ⟨magI2cAddr, ak09916RegCntl2, 1, false, true, false, false, false, ak09916ModeSingle⟩,
    setBank 3,
    write agb3RegI2cMstOdrConfig [0x04],
    setClockSource 1,
    setBank 0,
    write agb0RegPwrMgmt2 [0x40],
    setSampleMode (internalMst.setWidth 8) (sampleModeCycled.setWidth 8),
    enableFifo false,
    enableDmp false,
    setFullScale internalAccGyr ⟨gpm4, dps2000⟩,
    enableDlpf 2 true,
    setBank 0,
    write agb0RegFifoEn1 [0x00],
    write agb0RegFifoEn2 [0x00],
    intEnableRawDataReady false,
    resetFifo,
    setSampleRate internalAccGyr ⟨19, 19⟩,
    setDmpStartAddress dmpStartAddress,
    loadDmpFirmware build,
    setDmpStartAddress dmpStartAddress,
    setBank 0,
    write agb0RegHwFixDisable [0x48],
    setBank 0,
    write agb0RegSingleFifoPrioritySel [0xE4]] ++
  writeAll mountWrites ++ [setGyroSf 19 3] ++ writeAll scaleWrites

/-- The last call: the compass time buffer, 69 Hz. -/
def dmpLastStep : Method Status := writeDmpMems cpassTimeBuffer (some [0x00, 0x45])

def worse (worstResult result : Status) : Status :=
  if result > worstResult then result else worstResult

/-- `result = step; if (result > worstResult) worstResult = result;` for every step. -/
def worstOf : List (Method Status) → Status → Method Status
  | [], worstResult => pure worstResult
  | step :: steps, worstResult => do
    let result ← step
    worstOf steps (worse worstResult result)

def initializeDmp (build : Build) : Method Status := ifDmp <|
  if build.useDmp then worstOf (dmpSteps build ++ [dmpLastStep]) Status.ok
  else pure Status.ok

/-! ## SPI -/

/-- What `begin` assigns in `_device`. -/
def beginDevice (build : Build) (device : Device) : Device :=
  { device with
    dmpFirmwareAvailable := build.useDmp
    firmwareLoaded := false
    lastMemsBank := 255
    gyroSF := 0
    gyroSFpll := 0
    enabledAndroid0 := 0
    enabledAndroid1 := 0
    enabledAndroidIntr0 := 0
    enabledAndroidIntr1 := 0 }

def spiOpen (csPin : Byte) (spiFreq : BitVec 32) : Io Int :=
  Prog.perform (BusEvent.spiOpen csPin spiFreq)

def begin (build : Build) (csPin : Byte) (spiFreq : BitVec 32) : Method Status := do
  let spiFreq := if spiFreq > 7000000 then 7000000 else spiFreq
  let spiHandle ← spiOpen csPin spiFreq
  modify fun icm => { icm with spiHandle := spiHandle }
  -- `status` is not assigned here
  if spiHandle < 0 then return Status.err
  modify fun icm => { icm with device := beginDevice build icm.device }
  let status ← startupDefault (← get).device.dmpFirmwareAvailable
  report status

end Icm20948

end SimuSound.Imu
