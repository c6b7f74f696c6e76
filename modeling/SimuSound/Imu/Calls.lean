import SimuSound.Imu.Object

/-!
# Calls — the public methods as values

A run of the object is a list of calls, so a call is a constructor with the arguments of its method.
-/

namespace SimuSound.Imu

/-- The public methods and their arguments. -/
inductive Call
  | setBank (bank : Byte)
  | swReset
  | sleep (on : Bool)
  | lowPower (on : Bool)
  | setClockSource (source : BitVec 32)
  | checkId
  | dataReady
  | getWhoAmI
  | isConnected
  | getAgmt
  | setSampleMode (sensorIdBm lpConfigCycleMode : Byte)
  | setFullScale (sensorIdBm : Byte) (fss : Fss)
  | setDlpfCfg (sensorIdBm : Byte) (cfg : Dlpcfg)
  | enableDlpf (sensorIdBm : Byte) (enable : Bool)
  | setSampleRate (sensorIdBm : Byte) (smplrt : Smplrt)
  | clearInterrupts
  | cfgIntActiveLow (activeLow : Bool)
  | cfgIntOpenDrain (openDrain : Bool)
  | cfgIntLatch (latching : Bool)
  | cfgIntAnyReadToClear (enabled : Bool)
  | cfgFsyncActiveLow (activeLow : Bool)
  | cfgFsyncIntMode (interruptMode : Bool)
  | intEnableI2C (enable : Bool)
  | intEnableDmp (enable : Bool)
  | intEnablePll (enable : Bool)
  | intEnableWom (enable : Bool)
  | intEnableWof (enable : Bool)
  | intEnableRawDataReady (enable : Bool)
  | intEnableOverflowFifo (bmEnable : Byte)
  | intEnableWatermarkFifo (bmEnable : Byte)
  | womThreshold (threshold : Byte)
  | i2cMasterPassthrough (passthrough : Bool)
  | i2cMasterEnable (enable : Bool)
  | i2cMasterReset
  | i2cControllerConfigurePeripheral (peripheral : Byte) (c : PeriphConfig)
  | i2cMasterConfigureSlave (peripheral : Byte) (c : PeriphConfig)
  | i2cControllerPeriph4Transaction (addr reg : Byte) (data : List Byte) (rw sendRegAddr : Bool)
  | i2cMasterSLV4Transaction (addr reg : Byte) (data : List Byte) (rw sendRegAddr : Bool)
  | i2cMasterSingleW (addr reg data : Byte)
  | i2cMasterSingleR (addr reg : Byte)
  | startupDefault (minimal : Bool)
  | read (reg : Byte) (pdata : List Byte)
  | write (reg : Byte) (pdata : List Byte)
  | startupMagnetometer (minimal : Bool)
  | magWhoIAm
  | readMag (reg : Byte)
  | writeMag (reg pdata : Byte)
  | resetMag
  | enableFifo (enable : Bool)
  | resetFifo
  | setFifoMode (snapshot : Bool)
  | getFifoCount (count : BitVec 16)
  | readFifo (data : List Byte)
  | enableDmp (enable : Bool)
  | resetDmp
  | loadDmpFirmware
  | setDmpStartAddress (address : BitVec 16)
  | enableDmpSensor (sensor : BitVec 32) (enable : Bool)
  | enableDmpSensorInt (sensor : BitVec 32) (enable : Bool)
  | writeDmpMems (reg : BitVec 16) (data : Option (List Byte))
  | readDmpMems (reg : BitVec 16) (data : Option (List Byte))
  | setDmpOdrRate (odrReg interval : BitVec 32)
  | readDmpDataFromFifo (data : DmpData)
  | setGyroSf (div : Byte) (gyroLevel : Int)
  | initializeDmp
  | begin (csPin : Byte) (spiFreq : BitVec 32)

/-- A method that returns a status. -/
def returned (p : Method Status) : Method (Option Status) := some <$> p

/-- A method that returns a status and fills something of the caller's. -/
def retvalOf {α : Type} (p : Method (Read α)) : Method (Option Status) :=
  (fun r => some r.retval) <$> p

/-- A method that returns something else. -/
def noStatus {α : Type} (p : Method α) : Method (Option Status) := (fun _ => none) <$> p

/-- Make the call; the result is the status it returns, if that is what it returns. -/
def Icm20948.call (build : Build) : Call → Method (Option Status)
  | .setBank bank => returned (setBank bank)
  | .swReset => returned swReset
  | .sleep on => returned (sleep on)
  | .lowPower on => returned (lowPower on)
  | .setClockSource source => returned (setClockSource source)
  | .checkId => returned checkId
  | .dataReady => noStatus dataReady
  | .getWhoAmI => noStatus getWhoAmI
  | .isConnected => noStatus isConnected
  | .getAgmt => noStatus getAgmt
  | .setSampleMode sensors mode => returned (setSampleMode sensors mode)
  | .setFullScale sensors fss => returned (setFullScale sensors fss)
  | .setDlpfCfg sensors cfg => returned (setDlpfCfg sensors cfg)
  | .enableDlpf sensors enable => returned (enableDlpf sensors enable)
  | .setSampleRate sensors smplrt => returned (setSampleRate sensors smplrt)
  | .clearInterrupts => returned clearInterrupts
  | .cfgIntActiveLow activeLow => returned (cfgIntActiveLow activeLow)
  | .cfgIntOpenDrain openDrain => returned (cfgIntOpenDrain openDrain)
  | .cfgIntLatch latching => returned (cfgIntLatch latching)
  | .cfgIntAnyReadToClear enabled => returned (cfgIntAnyReadToClear enabled)
  | .cfgFsyncActiveLow activeLow => returned (cfgFsyncActiveLow activeLow)
  | .cfgFsyncIntMode interruptMode => returned (cfgFsyncIntMode interruptMode)
  | .intEnableI2C enable => returned (intEnableI2C enable)
  | .intEnableDmp enable => returned (intEnableDmp enable)
  | .intEnablePll enable => returned (intEnablePll enable)
  | .intEnableWom enable => returned (intEnableWom enable)
  | .intEnableWof enable => returned (intEnableWof enable)
  | .intEnableRawDataReady enable => returned (intEnableRawDataReady enable)
  | .intEnableOverflowFifo bmEnable => returned (intEnableOverflowFifo bmEnable)
  | .intEnableWatermarkFifo bmEnable => returned (intEnableWatermarkFifo bmEnable)
  | .womThreshold threshold => returned (womThreshold threshold)
  | .i2cMasterPassthrough passthrough => returned (i2cMasterPassthrough passthrough)
  | .i2cMasterEnable enable => returned (i2cMasterEnable enable)
  | .i2cMasterReset => returned i2cMasterReset
  | .i2cControllerConfigurePeripheral peripheral c =>
    returned (i2cControllerConfigurePeripheral peripheral c)
  | .i2cMasterConfigureSlave peripheral c => returned (i2cMasterConfigureSlave peripheral c)
  | .i2cControllerPeriph4Transaction addr reg data rw sendRegAddr =>
    retvalOf (i2cControllerPeriph4Transaction addr reg data rw sendRegAddr)
  | .i2cMasterSLV4Transaction addr reg data rw sendRegAddr =>
    retvalOf (i2cMasterSLV4Transaction addr reg data rw sendRegAddr)
  | .i2cMasterSingleW addr reg data => returned (i2cMasterSingleW addr reg data)
  | .i2cMasterSingleR addr reg => noStatus (i2cMasterSingleR addr reg)
  | .startupDefault minimal => returned (startupDefault minimal)
  | .read reg pdata => retvalOf (read reg fun i : Fin pdata.length => pdata.get i)
  | .write reg pdata => returned (write reg pdata)
  | .startupMagnetometer minimal => returned (startupMagnetometer minimal)
  | .magWhoIAm => returned magWhoIAm
  | .readMag reg => noStatus (readMag reg)
  | .writeMag reg pdata => returned (writeMag reg pdata)
  | .resetMag => returned resetMag
  | .enableFifo enable => returned (enableFifo enable)
  | .resetFifo => returned resetFifo
  | .setFifoMode snapshot => returned (setFifoMode snapshot)
  | .getFifoCount count => retvalOf (getFifoCount count)
  | .readFifo data => retvalOf (readFifo fun i : Fin data.length => data.get i)
  | .enableDmp enable => returned (enableDmp enable)
  | .resetDmp => returned resetDmp
  | .loadDmpFirmware => returned (loadDmpFirmware build)
  | .setDmpStartAddress address => returned (setDmpStartAddress address)
  | .enableDmpSensor sensor enable => returned (enableDmpSensor sensor enable)
  | .enableDmpSensorInt sensor enable => returned (enableDmpSensorInt sensor enable)
  | .writeDmpMems reg data => returned (writeDmpMems reg data)
  | .readDmpMems reg data => retvalOf (readDmpMems reg data)
  | .setDmpOdrRate odrReg interval => returned (setDmpOdrRate odrReg interval)
  | .readDmpDataFromFifo data => retvalOf (readDmpDataFromFifo data)
  | .setGyroSf div gyroLevel => returned (setGyroSf div gyroLevel)
  | .initializeDmp => returned (initializeDmp build)
  | .begin csPin spiFreq => returned (begin build csPin spiFreq)

/-- The methods that ask whether the DMP is there. -/
def Call.needsDmp : Call → Bool
  | .enableDmp _ | .loadDmpFirmware | .setDmpStartAddress _ | .enableDmpSensor _ _
  | .enableDmpSensorInt _ _ | .writeDmpMems _ _ | .readDmpMems _ _ | .setDmpOdrRate _ _
  | .readDmpDataFromFifo _ | .setGyroSf _ _ | .initializeDmp => true
  | _ => false

end SimuSound.Imu
