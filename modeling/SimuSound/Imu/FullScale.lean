import SimuSound.Imu.DmpFifo
import SimuSound.Imu.DmpSensors
import SimuSound.Imu.Fifo
import SimuSound.Imu.I2cMaster
import SimuSound.Imu.Interrupts
import SimuSound.Imu.RegisterFile
import SimuSound.Imu.Reporting
import SimuSound.Imu.Sensors

/-!
# FullScale — the full-scale setting and the rest of the driver

`ICM_20948_get_agmt` reports the scale of a measurement from the registers that
`ICM_20948_set_full_scale` wrote.  Two other operations rewrite the same registers, and none writes
anything else into them.
-/

namespace SimuSound.Imu

open Reasoning

/-! ## The operations -/

/-- A driver function with its arguments, other than `sw_reset` and `set_full_scale`. -/
inductive Operation
  | sleep (on : Bool)
  | lowPower (on : Bool)
  | setClockSource (source : BitVec 32)
  | getWhoAmI (dest : Byte)
  | checkId
  | dataReady
  | intPinCfg (write read : Option Byte)
  | intEnable (write read : Option IntEnables)
  | womThreshold (write read : Option Byte)
  | setSampleMode (sensors : Sensors) (mode : BitVec 32)
  | setDlpfCfg (sensors : Sensors) (cfg : Dlpcfg)
  | enableDlpf (sensors : Sensors) (enable : Bool)
  | setSampleRate (sensors : Sensors) (smplrt : Smplrt)
  | getAgmt (pagmt : Option Agmt)
  | i2cMasterPassthrough (passthrough : Bool)
  | i2cMasterEnable (enable : Bool)
  | i2cMasterReset
  | i2cControllerConfigurePeripheral (peripheral : Byte) (c : PeriphConfig)
  | i2cControllerPeriph4Txn (addr reg : Byte) (data : List Byte) (rw sendRegAddr : Bool)
  | i2cMasterSingleW (addr reg data : Byte)
  | i2cMasterSingleR (addr reg dest : Byte)
  | enableFifo (enable : Bool)
  | resetFifo
  | setFifoMode (snapshot : Bool)
  | getFifoCount (count : BitVec 16)
  | readFifo (data : List Byte)
  | enableDmp (enable : Bool)
  | resetDmp
  | firmwareLoad (build : Build)
  | setDmpStartAddress (address : BitVec 16)
  | writeMems (reg : BitVec 16) (data : Option (List Byte))
  | readMems (reg : BitVec 16) (data : Option (List Byte))
  | setDmpSensorPeriod (odrReg : BitVec 32) (interval : BitVec 16)
  | enableDmpSensor (sensor : BitVec 32) (state : Int)
  | enableDmpSensorInt (sensor : BitVec 32) (state : Int)
  | readDmpData (data : DmpData)
  | setGyroSf (div : Byte) (gyroLevel : Int)

def Operation.run : Operation → Drv PUnit
  | .sleep on => callIo (Imu.sleep on)
  | .lowPower on => callIo (Imu.lowPower on)
  | .setClockSource source => callIo (Imu.setClockSource source)
  | .getWhoAmI dest => callIo (Imu.getWhoAmI dest)
  | .checkId => callIo Imu.checkId
  | .dataReady => callIo Imu.dataReady
  | .intPinCfg write read => callIo (Imu.intPinCfg write read)
  | .intEnable write read => callIo (Imu.intEnable write read)
  | .womThreshold write read => callIo (Imu.womThreshold write read)
  | .setSampleMode sensors mode => callIo (Imu.setSampleMode sensors mode)
  | .setDlpfCfg sensors cfg => callIo (Imu.setDlpfCfg sensors cfg)
  | .enableDlpf sensors enable => callIo (Imu.enableDlpf sensors enable)
  | .setSampleRate sensors smplrt => callIo (Imu.setSampleRate sensors smplrt)
  | .getAgmt pagmt => callIo (Imu.getAgmt pagmt)
  | .i2cMasterPassthrough passthrough => callIo (Imu.i2cMasterPassthrough passthrough)
  | .i2cMasterEnable enable => callIo (Imu.i2cMasterEnable enable)
  | .i2cMasterReset => callIo Imu.i2cMasterReset
  | .i2cControllerConfigurePeripheral peripheral c =>
    callIo (Imu.i2cControllerConfigurePeripheral peripheral c)
  | .i2cControllerPeriph4Txn addr reg data rw sendRegAddr =>
    callIo (Imu.i2cControllerPeriph4Txn addr reg data rw sendRegAddr)
  | .i2cMasterSingleW addr reg data => callIo (Imu.i2cMasterSingleW addr reg data)
  | .i2cMasterSingleR addr reg dest => callIo (Imu.i2cMasterSingleR addr reg dest)
  | .enableFifo enable => callIo (Imu.enableFifo enable)
  | .resetFifo => callIo Imu.resetFifo
  | .setFifoMode snapshot => callIo (Imu.setFifoMode snapshot)
  | .getFifoCount count => callIo (Imu.getFifoCount count)
  | .readFifo data => callIo (Imu.readFifo data.get)
  | .enableDmp enable => callIo (Imu.enableDmp enable)
  | .resetDmp => callIo Imu.resetDmp
  | .firmwareLoad build => callDrv (Imu.firmwareLoad build)
  | .setDmpStartAddress address => callDrv (Imu.setDmpStartAddress address)
  | .writeMems reg data => callDrv (Imu.writeMems reg data)
  | .readMems reg data => callDrv (Imu.readMems reg data)
  | .setDmpSensorPeriod odrReg interval => callDrv (Imu.setDmpSensorPeriod odrReg interval)
  | .enableDmpSensor sensor state => callDrv (Imu.enableDmpSensor sensor state)
  | .enableDmpSensorInt sensor state => callDrv (Imu.enableDmpSensorInt sensor state)
  | .readDmpData data => callDrv (Imu.readDmpData data)
  | .setGyroSf div gyroLevel => callDrv (Imu.setGyroSf div gyroLevel)

def runAll : List Operation → Drv PUnit
  | [] => pure ⟨⟩
  | op :: ops => do
    op.run
    runAll ops

/-- The scale that `get_agmt` finds in the registers. -/
def scaleOf (regs : RegFile) : Fss where
  a := (AccelConfig.accelFsSel.get (regs.get agb2RegAccelConfig)).setWidth 2
  g := (GyroConfig1.gyroFsSel.get (regs.get agb2RegGyroConfig1)).setWidth 2

/-! ## Operations that write elsewhere -/

/-- The access writes to neither of the two configuration registers. -/
def SparesScale (e : BusEvent) : Prop :=
  Untouched (addr agb2RegAccelConfig) e ∧ Untouched (addr agb2RegGyroConfig1) e

abbrev Spares {α : Type} (p : Io α) : Prop := p.Uses SparesScale
abbrev DrvSpares {α : Type} (p : Drv α) : Prop := Prog.UsesFrom SparesScale p

/-- The address is that of neither configuration register. -/
abbrev OffScale (reg : Byte) : Prop :=
  addr agb2RegAccelConfig ≠ addr reg ∧ addr agb2RegGyroConfig1 ≠ addr reg

theorem spares_writeByte {reg : Byte} (h : OffScale reg) (b : Byte) : Spares (writeByte reg b) :=
  ⟨⟨untouched_writeByte h.1 b, untouched_writeByte h.2 b⟩, fun _ => trivial⟩

theorem spares_readByte (reg dest : Byte) : Spares (readByte reg dest) :=
  ⟨⟨trivial, trivial⟩, fun _ => trivial⟩

theorem spares_uninitByte : Spares uninitByte := ⟨⟨trivial, trivial⟩, fun _ => trivial⟩

theorem spares_updateReg (bank : Byte) {reg : Byte} (h : OffScale reg) (assign : Byte → Byte) :
    Spares (updateReg bank reg assign) :=
  uses_updateReg bank reg assign (fun _ => ⟨trivial, trivial⟩) ⟨trivial, trivial⟩
    fun b => ⟨untouched_writeByte h.1 b, untouched_writeByte h.2 b⟩

theorem spares_checkId : Spares checkId :=
  (spares_readByte _ _).bind fun _ => .ite trivial (.ite trivial trivial)

theorem spares_dataReady : Spares dataReady :=
  spares_uninitByte.bind fun garbage => uses_guard trivial fun _ =>
    uses_guardRead (spares_readByte _ garbage) fun _ => .ite trivial trivial

theorem spares_intPinCfg (write read : Option Byte) : Spares (intPinCfg write read) := by
  have hread (dest : Byte) : Spares (readByte agb0RegIntPinConfig dest >>= fun r =>
      pure (⟨r.retval, some r.val⟩ : Read (Option Byte))) :=
    (spares_readByte _ _).bind fun _ => trivial
  cases write with
  | none =>
    cases read with
    | none => trivial
    | some dest => exact hread dest
  | some w =>
    refine (spares_writeByte (by decide) w).bind fun retval => .ite trivial ?_
    cases read with
    | none => trivial
    | some dest => exact hread dest

theorem spares_intEnableWrite (w : IntEnables) (en : Fin 4 → Byte) :
    Spares (intEnableWrite w en) := by
  refine uses_guard (spares_writeByte (by decide) _) fun _ => ?_
  refine uses_guard (spares_writeByte (by decide) _) fun _ => ?_
  exact uses_guard (spares_writeByte (by decide) _) fun _ => spares_writeByte (by decide) _

theorem spares_intEnableRead (dest : IntEnables) (en : Fin 4 → Byte) :
    Spares (intEnableRead dest en) :=
  uses_guardRead (spares_readByte _ _) fun _ => uses_guardRead (spares_readByte _ _) fun _ =>
    uses_guardRead (spares_readByte _ _) fun _ => uses_guardRead (spares_readByte _ _) fun _ =>
      trivial

theorem spares_intEnable (write read : Option IntEnables) : Spares (intEnable write read) := by
  have hread (dest : IntEnables) (en : Fin 4 → Byte) : Spares (intEnableRead dest en >>= fun r =>
      pure (⟨r.retval, some r.val⟩ : Read (Option IntEnables))) :=
    (spares_intEnableRead dest en).bind fun _ => trivial
  refine ⟨⟨trivial, trivial⟩, fun en => ?_⟩
  cases write with
  | none =>
    cases read with
    | none => trivial
    | some dest => exact hread dest en
  | some w =>
    refine (spares_intEnableWrite w en).bind fun retval => .ite trivial ?_
    cases read with
    | none => trivial
    | some dest => exact hread dest en

theorem spares_womThreshold (write read : Option Byte) : Spares (womThreshold write read) := by
  have hread (dest thr : Byte) : Spares (readByte agb2RegAccelWomThr thr >>= fun r =>
      pure (⟨r.retval, some (if r.retval = Status.ok then r.val else dest)⟩ :
        Read (Option Byte))) :=
    (spares_readByte _ _).bind fun _ => trivial
  refine spares_uninitByte.bind fun thr => ?_
  cases write with
  | none =>
    cases read with
    | none => trivial
    | some dest => exact hread dest thr
  | some w =>
    refine (spares_writeByte (by decide) w).bind fun retval => .ite trivial ?_
    cases read with
    | none => trivial
    | some dest => exact hread dest thr

theorem spares_setSampleMode (sensors : Sensors) (mode : BitVec 32) :
    Spares (setSampleMode sensors mode) := .ite (spares_updateReg _ (by decide) _) trivial

theorem spares_setSampleRate (sensors : Sensors) (smplrt : Smplrt) :
    Spares (setSampleRate sensors smplrt) := by
  have hblock (mask : Sensors) (p : Io Status) (hp : Spares p) : Spares (sensors.block mask p) :=
    .ite hp trivial
  unfold setSampleRate
  rw [forAccGyr_eq]
  refine (hblock _ _ ?_).bind fun _ => (hblock _ _ ?_).bind fun _ => trivial
  · exact (spares_writeByte (by decide) _).bind fun _ =>
      (spares_writeByte (by decide) _).bind fun _ => trivial
  · exact (spares_writeByte (by decide) _).bind fun _ => trivial

theorem spares_getAgmt (pagmt : Option Agmt) : Spares (getAgmt pagmt) := by
  cases pagmt with
  | none => trivial
  | some agmt =>
    have hpair (reg : Byte) {α : Type} {q : Read Byte → Io α} (hq : ∀ r, Spares (q r)) :
        Spares (uninitByte >>= fun garbage => readByte reg garbage >>= q) :=
      spares_uninitByte.bind fun _ => (spares_readByte _ _).bind hq
    refine ⟨⟨trivial, trivial⟩, fun garbage => ⟨⟨trivial, trivial⟩, fun raw => ?_⟩⟩
    exact hpair _ fun acfg => hpair _ fun gcfg1 => hpair _ fun acfg2 => trivial

/-! ### The auxiliary I2C master -/

theorem spares_i2cMasterEnable (enable : Bool) : Spares (i2cMasterEnable enable) :=
  uses_guard (spares_updateReg _ (by decide) _) fun _ =>
    uses_guard (spares_updateReg _ (by decide) _) fun _ => spares_updateReg _ (by decide) _

theorem offScale_periphRegs {peripheral : Byte} {regs : PeriphRegs}
    (h : periphRegs peripheral = some regs) :
    OffScale regs.periphAddrReg ∧ OffScale regs.periphRegReg ∧ OffScale regs.periphCtrlReg ∧
      OffScale regs.periphDoReg :=
  periphRegs_forall (P := fun regs => OffScale regs.periphAddrReg ∧ OffScale regs.periphRegReg ∧
    OffScale regs.periphCtrlReg ∧ OffScale regs.periphDoReg) (by decide) (by decide) (by decide)
    (by decide) h

theorem spares_i2cControllerConfigurePeripheral (peripheral : Byte) (c : PeriphConfig) :
    Spares (i2cControllerConfigurePeripheral peripheral c) := by
  unfold i2cControllerConfigurePeripheral
  split
  · trivial
  · rename_i regs hregs
    obtain ⟨haddr, hreg, hctrl, hdo⟩ := offScale_periphRegs hregs
    refine spares_uninitByte.bind fun address => uses_guard (spares_writeByte haddr _) fun _ => ?_
    have hrest : Spares (writeByte regs.periphRegReg c.reg >>= fun retval =>
        if retval ≠ Status.ok then pure retval else
          uninitByte >>= fun ctrl => writeByte regs.periphCtrlReg (c.ctrl ctrl)) :=
      uses_guard (spares_writeByte hreg _) fun _ => spares_uninitByte.bind fun _ =>
        spares_writeByte hctrl _
    by_cases hrw : c.rw = true
    · rw [if_pos hrw]
      exact hrest
    · rw [if_neg hrw]
      exact uses_guard (spares_writeByte hdo _) fun _ => hrest

theorem spares_pollPeriph4 (left : Nat) (i2cMstStatus : Byte) :
    Spares (pollPeriph4 left i2cMstStatus) := by
  induction left generalizing i2cMstStatus with
  | zero => exact (spares_readByte _ _).bind fun _ => trivial
  | succ left ih => exact (spares_readByte _ _).bind fun r => .ite trivial (ih r.val)

theorem spares_kickOff (rw : Bool) (ctrl b : Byte) : Spares (kickOff rw ctrl b) :=
  .ite (spares_writeByte (by decide) _) <| uses_guard (spares_writeByte (by decide) _) fun _ =>
    spares_writeByte (by decide) _

theorem spares_periph4Bytes (rw : Bool) (ctrl : Byte) (data : List Byte) (i2cMstStatus : Byte)
    (retval : Status) : Spares (periph4Bytes rw ctrl data i2cMstStatus retval) := by
  induction data generalizing i2cMstStatus retval with
  | nil => trivial
  | cons b data ih =>
    refine uses_guard (spares_kickOff rw ctrl b) fun _ => ?_
    refine (spares_pollPeriph4 _ _).bind fun poll => .ite trivial ?_
    have hfetch : Spares (fetchByte rw b poll.retval) := .ite (spares_readByte _ _) trivial
    exact hfetch.bind fun r => (ih _ _).bind fun _ => trivial

theorem spares_i2cControllerPeriph4Txn (addr reg : Byte) (data : List Byte)
    (rw sendRegAddr : Bool) : Spares (i2cControllerPeriph4Txn addr reg data rw sendRegAddr) := by
  refine uses_guard (spares_writeByte (by decide) _) fun _ => ?_
  refine uses_guard (spares_writeByte (by decide) _) fun _ => ?_
  exact spares_uninitByte.bind fun _ =>
    spares_uninitByte.bind fun _ => spares_periph4Bytes _ _ _ _ _

/-! ### FIFO -/

theorem spares_resetFifo : Spares resetFifo := by
  refine spares_uninitByte.bind fun garbage => uses_guard trivial fun _ => ?_
  refine uses_guardRead (spares_readByte _ garbage) fun _ => ?_
  exact uses_guard (spares_writeByte (by decide) _) fun _ => spares_writeByte (by decide) _

theorem spares_getFifoCount (count : BitVec 16) : Spares (getFifoCount count) :=
  spares_uninitByte.bind fun _ => spares_uninitByte.bind fun _ => uses_guard trivial fun _ =>
    uses_guardRead (spares_readByte _ _) fun _ => uses_guardRead (spares_readByte _ _) fun _ =>
      trivial

theorem spares_readFifo {len : Nat} (data : Fin len → Byte) : Spares (readFifo data) :=
  ⟨⟨trivial, trivial⟩, fun _ => trivial⟩

theorem spares_takePart (part : Part) (d : Decoder) : Spares (takePart part d) :=
  (spares_readFifo _).bind fun _ => .ite trivial trivial

theorem spares_readPart (part : Part) (d : Decoder) : Spares (readPart part d) := by
  have hrest (counted : Read (BitVec 16)) : Spares
      (let d := { d with fifoCount := counted.val }
       if counted.retval ≠ Status.ok then pure ⟨counted.retval, d⟩
       else if d.fifoCount.toNat < part.len then pure ⟨Status.fifoIncompleteData, d⟩
       else takePart part d) := .ite trivial (.ite trivial (spares_takePart part _))
  exact .ite ((spares_getFifoCount _).bind hrest) (hrest ⟨Status.ok, d.fifoCount⟩)

theorem spares_readPayloads (payloads : List Payload) (d : Decoder) :
    Spares (readPayloads payloads d) := by
  induction payloads generalizing d with
  | nil => trivial
  | cons payload rest ih =>
    exact .ite ((spares_readPart _ _).bind fun r => .ite trivial (ih _)) (ih d)

theorem spares_readFrame (d : Decoder) : Spares (readFrame d) := by
  have hheader2 (d : Decoder) : Spares (readHeader2 d) := .ite (spares_readPart _ _) trivial
  refine uses_guardRead (spares_takePart _ _) fun r => uses_guardRead (hheader2 _) fun r => ?_
  refine uses_guardRead (spares_readPayloads _ _) fun r => ?_
  exact uses_guardRead (spares_readPart _ _) fun r => .ite trivial trivial

/-! ### DMP -/

theorem drvSpares_lift {α : Type} {p : Io α} (hp : Spares p) : DrvSpares (liftM p : Drv α) :=
  Prog.usesFrom_lift hp

theorem drvSpares_guard {α : Type} {p : Drv Status} {fail : Status → α} {q : Status → Drv α}
    (hp : DrvSpares p) (hq : ∀ retval, DrvSpares (q retval)) :
    DrvSpares (p >>= fun retval => if retval ≠ Status.ok then pure (fail retval) else q retval) :=
  hp.bind fun retval => .ite (Prog.usesFrom_pure _) (hq retval)

/-- Locals that are not initialised cost no access. -/
theorem spares_of_silent {α : Type} {p : Io α} (hp : p.Uses fun e => ∀ r, Good e r) : Spares p := by
  refine hp.mono fun e he => ?_
  cases e with
  | write reg data => exact absurd (he Status.err) (show Status.err ≠ Status.ok by decide)
  | read reg len => exact ⟨trivial, trivial⟩
  | uninit len => exact ⟨trivial, trivial⟩
  | spiOpen csPin freq => exact ⟨trivial, trivial⟩

theorem spares_memBankSel (b : Byte) : SparesScale (.write agb0RegMemBankSel [b]) :=
  ⟨untouched_writeByte (by decide) b, untouched_writeByte (by decide) b⟩

/-- The start address is no configuration register, and the port takes any number of bytes. -/
theorem spares_memStartAddr (b : Byte) : SparesScale (.write agb0RegMemStartAddr [b]) :=
  ⟨untouched_writeByte (by decide) b, untouched_writeByte (by decide) b⟩

theorem drvSpares_writeMems (reg : BitVec 16) (data : Option (List Byte)) :
    DrvSpares (writeMems reg data) :=
  uses_writeMems spares_memBankSel spares_memStartAddr
    (fun chunk => ⟨untouched_port _ rfl chunk, untouched_port _ rfl chunk⟩) reg data

theorem spares_readMemsLoop (fuel : Nat) (reg : BitVec 16) (dest : List Byte) :
    Spares (readMemsLoop fuel reg dest) :=
  uses_readMemsLoop spares_memStartAddr (fun _ => ⟨trivial, trivial⟩) fuel reg dest

theorem drvSpares_readMems (reg : BitVec 16) (data : Option (List Byte)) :
    DrvSpares (readMems reg data) := by
  cases data with
  | none => exact Prog.usesFrom_pure _
  | some dest =>
    exact drvSpares_guard (drvSpares_lift trivial) fun _ =>
      drvSpares_guard (uses_selectMemsBank spares_memBankSel reg) fun _ =>
        (drvSpares_lift (spares_readMemsLoop _ _ _)).bind fun _ => Prog.usesFrom_pure _

theorem drvSpares_firmwareWriteLoop (fuel : Nat) (memaddr : BitVec 16) (data : List Byte) :
    DrvSpares (firmwareWriteLoop fuel memaddr data) := by
  induction fuel generalizing memaddr data with
  | zero => exact Prog.usesFrom_pure _
  | succ fuel ih =>
    cases data with
    | nil => exact Prog.usesFrom_pure _
    | cons b data => exact drvSpares_guard (drvSpares_writeMems _ _) fun _ => ih _ _

theorem drvSpares_firmwareVerifyLoop (fuel : Nat) (memaddr : BitVec 16) (data dataCmp : List Byte)
    (flag : Bool) : DrvSpares (firmwareVerifyLoop fuel memaddr data dataCmp flag) := by
  induction fuel generalizing memaddr data dataCmp flag with
  | zero => exact Prog.usesFrom_pure _
  | succ fuel ih =>
    cases data with
    | nil => exact Prog.usesFrom_pure _
    | cons b data =>
      exact (drvSpares_readMems _ _).bind fun _ => .ite (Prog.usesFrom_pure _) (ih _ _ _ _)

theorem drvSpares_sleep (on : Bool) : DrvSpares (liftM (sleep on) : Drv Status) :=
  drvSpares_lift (spares_updateReg _ (by decide) _)

theorem drvSpares_lowPower (on : Bool) : DrvSpares (liftM (lowPower on) : Drv Status) :=
  drvSpares_lift (spares_updateReg _ (by decide) _)

theorem drvSpares_firmwareLoad (build : Build) : DrvSpares (firmwareLoad build) := by
  have hinv : DrvSpares (invFirmwareLoad build.dmp3Image dmpLoadStart) := by
    refine (drvSpares_lift (p := uninit 16) ⟨⟨trivial, trivial⟩, fun _ => trivial⟩).bind
      fun garbage => ?_
    refine Prog.usesFrom_get.bind fun pdev => .ite (Prog.usesFrom_pure _) ?_
    refine .ite (Prog.usesFrom_pure _) (drvSpares_guard (drvSpares_sleep _) fun _ => ?_)
    refine drvSpares_guard (drvSpares_lowPower _) fun _ => ?_
    refine drvSpares_guard (drvSpares_firmwareWriteLoop _ _ _) fun _ => ?_
    refine (drvSpares_firmwareVerifyLoop _ _ _ _ _).bind fun r => .ite (Prog.usesFrom_pure _) ?_
    refine drvSpares_guard (drvSpares_lowPower _) fun _ => ?_
    exact (Prog.usesFrom_modify _).bind fun _ => Prog.usesFrom_pure _
  exact .ite hinv (Prog.usesFrom_pure _)

theorem drvSpares_setDmpStartAddress (address : BitVec 16) :
    DrvSpares (setDmpStartAddress address) := by
  have hwrite (a : BitVec 7) (h : ∀ i < 2, a ≠ addr agb2RegPrgmStartAddrh + BitVec.ofNat 7 i) :
      Untouched a (.write agb2RegPrgmStartAddrh [hiByte address, loByte address]) :=
    fun _ i hi => h i hi
  refine Prog.usesFrom_get.bind fun pdev => .ite (Prog.usesFrom_pure _) ?_
  refine drvSpares_guard (drvSpares_lift trivial) fun _ => drvSpares_lift ⟨?_, fun _ => trivial⟩
  exact ⟨hwrite _ (by decide), hwrite _ (by decide)⟩

theorem drvSpares_setDmpSensorPeriod (odrReg : BitVec 32) (interval : BitVec 16) :
    DrvSpares (setDmpSensorPeriod odrReg interval) := by
  have hperiod : DrvSpares (writeSensorPeriod odrReg interval) := by
    unfold writeSensorPeriod
    split
    · exact Prog.usesFrom_pure _
    · exact (drvSpares_writeMems _ _).bind fun _ => (drvSpares_writeMems _ _).bind fun _ =>
        Prog.usesFrom_pure _
  refine Prog.usesFrom_get.bind fun pdev => .ite (Prog.usesFrom_pure _) ?_
  refine drvSpares_guard (drvSpares_sleep _) fun _ => ?_
  refine drvSpares_guard (drvSpares_lowPower _) fun _ => ?_
  refine hperiod.bind fun results => drvSpares_guard (drvSpares_lowPower _) fun result => ?_
  exact .ite (Prog.usesFrom_pure _) (Prog.usesFrom_pure _)

theorem drvSpares_enableDmpSensor (sensor : BitVec 32) (state : Int) :
    DrvSpares (enableDmpSensor sensor state) := by
  have hstep {f : Device → Device} {reg value : BitVec 16} {q : Status → Drv Status}
      (hq : ∀ result, DrvSpares (q result)) : DrvSpares (modify f >>= fun _ =>
        writeMems16 reg value >>= fun result =>
          if result ≠ Status.ok then pure result else q result) :=
    (Prog.usesFrom_modify f).bind fun _ => drvSpares_guard (drvSpares_writeMems _ _) hq
  refine Prog.usesFrom_get.bind fun pdev => .ite (Prog.usesFrom_pure _) ?_
  refine .ite (Prog.usesFrom_pure _) ?_
  refine (drvSpares_lift (spares_of_silent (silent_controlBits _))).bind fun delta => ?_
  refine .ite (Prog.usesFrom_pure _) ((Prog.usesFrom_modify _).bind fun _ => ?_)
  refine Prog.usesFrom_get.bind fun pdev => ?_
  refine (drvSpares_lift (spares_of_silent (silent_rebuild _ _))).bind fun acc => ?_
  refine drvSpares_guard (drvSpares_sleep _) fun _ => ?_
  refine drvSpares_guard (drvSpares_lowPower _) fun _ => ?_
  exact hstep fun _ => hstep fun _ => hstep fun _ => hstep fun _ => drvSpares_lowPower _

theorem drvSpares_enableDmpSensorInt (sensor : BitVec 32) (state : Int) :
    DrvSpares (enableDmpSensorInt sensor state) := by
  refine Prog.usesFrom_get.bind fun pdev => .ite (Prog.usesFrom_pure _) ?_
  refine .ite (Prog.usesFrom_pure _) ?_
  refine (drvSpares_lift (spares_of_silent (silent_controlBits _))).bind fun delta => ?_
  refine .ite (Prog.usesFrom_pure _) ((Prog.usesFrom_modify _).bind fun _ => ?_)
  refine Prog.usesFrom_get.bind fun pdev => ?_
  refine (drvSpares_lift (spares_of_silent (silent_rebuildIntr _ _))).bind fun acc => ?_
  refine drvSpares_guard (drvSpares_sleep _) fun _ => ?_
  refine drvSpares_guard (drvSpares_lowPower _) fun _ => ?_
  refine (Prog.usesFrom_modify _).bind fun _ => ?_
  exact (drvSpares_writeMems _ _).bind fun _ => drvSpares_lowPower _

theorem drvSpares_setGyroSf (div : Byte) (gyroLevel : Int) :
    DrvSpares (setGyroSf div gyroLevel) := by
  refine Prog.usesFrom_get.bind fun pdev => .ite (Prog.usesFrom_pure _) ?_
  refine (drvSpares_lift spares_uninitByte).bind fun garbage => ?_
  refine (drvSpares_lift (p := setBank 1) trivial).bind fun _ => ?_
  refine (drvSpares_lift (spares_readByte _ _)).bind fun r => .ite (Prog.usesFrom_pure _) ?_
  refine (Prog.usesFrom_modify _).bind fun _ => (Prog.usesFrom_modify _).bind fun _ => ?_
  exact drvSpares_writeMems _ _

theorem drvSpares_readDmpData (data : DmpData) : DrvSpares (readDmpData data) := by
  have huninit (len : Nat) : Spares (uninit len) := ⟨⟨trivial, trivial⟩, fun _ => trivial⟩
  refine (drvSpares_lift (huninit _)).bind fun fifoBytes => Prog.usesFrom_get.bind fun pdev => ?_
  refine .ite (Prog.usesFrom_pure _) ((drvSpares_lift (huninit _)).bind fun count => ?_)
  refine (drvSpares_lift (spares_getFifoCount _)).bind fun counted => .ite (Prog.usesFrom_pure _) ?_
  exact .ite (Prog.usesFrom_pure _) (drvSpares_lift (spares_readFrame _))

/-! ## What one operation does to the scale -/

/-- The operations that rewrite the configuration registers. -/
def Operation.rewritesScale : Operation → Bool
  | .setDlpfCfg _ _ | .enableDlpf _ _ => true
  | _ => false

theorem spares_run (op : Operation) (h : op.rewritesScale = false) : DrvSpares op.run := by
  have hio {α : Type} {p : Io α} (hp : Spares p) : DrvSpares (callIo p) :=
    (drvSpares_lift hp).bind fun _ => Prog.usesFrom_pure _
  have hdrv {α : Type} {p : Drv α} (hp : DrvSpares p) : DrvSpares (callDrv p) :=
    hp.bind fun _ => Prog.usesFrom_pure _
  have hreg {bank reg : Byte} (hoff : OffScale reg) {assign : Byte → Byte} :
      DrvSpares (callIo (updateReg bank reg assign)) := hio (spares_updateReg bank hoff assign)
  cases op with
  | sleep on => exact hreg (by decide)
  | lowPower on => exact hreg (by decide)
  | setClockSource source => exact hreg (by decide)
  | getWhoAmI dest => exact hio (spares_readByte _ _)
  | checkId => exact hio spares_checkId
  | dataReady => exact hio spares_dataReady
  | intPinCfg write read => exact hio (spares_intPinCfg _ _)
  | intEnable write read => exact hio (spares_intEnable _ _)
  | womThreshold write read => exact hio (spares_womThreshold _ _)
  | setSampleMode sensors mode => exact hio (spares_setSampleMode _ _)
  | setDlpfCfg sensors cfg => cases h
  | enableDlpf sensors enable => cases h
  | setSampleRate sensors smplrt => exact hio (spares_setSampleRate _ _)
  | getAgmt pagmt => exact hio (spares_getAgmt _)
  | i2cMasterPassthrough passthrough => exact hreg (by decide)
  | i2cMasterEnable enable => exact hio (spares_i2cMasterEnable _)
  | i2cMasterReset => exact hreg (by decide)
  | i2cControllerConfigurePeripheral peripheral c =>
    exact hio (spares_i2cControllerConfigurePeripheral _ _)
  | i2cControllerPeriph4Txn addr reg data rw sendRegAddr =>
    exact hio (spares_i2cControllerPeriph4Txn _ _ _ _ _)
  | i2cMasterSingleW addr reg data =>
    exact hio ((spares_i2cControllerPeriph4Txn _ _ _ _ _).bind fun _ => trivial)
  | i2cMasterSingleR addr reg dest =>
    exact hio ((spares_i2cControllerPeriph4Txn _ _ _ _ _).bind fun _ => trivial)
  | enableFifo enable => exact hreg (by decide)
  | resetFifo => exact hio spares_resetFifo
  | setFifoMode snapshot => exact hreg (by decide)
  | getFifoCount count => exact hio (spares_getFifoCount _)
  | readFifo data => exact hio (spares_readFifo _)
  | enableDmp enable => exact hreg (by decide)
  | resetDmp => exact hreg (by decide)
  | firmwareLoad build => exact hdrv (drvSpares_firmwareLoad _)
  | setDmpStartAddress address => exact hdrv (drvSpares_setDmpStartAddress _)
  | writeMems reg data => exact hdrv (drvSpares_writeMems _ _)
  | readMems reg data => exact hdrv (drvSpares_readMems _ _)
  | setDmpSensorPeriod odrReg interval => exact hdrv (drvSpares_setDmpSensorPeriod _ _)
  | enableDmpSensor sensor state => exact hdrv (drvSpares_enableDmpSensor _ _)
  | enableDmpSensorInt sensor state => exact hdrv (drvSpares_enableDmpSensorInt _ _)
  | readDmpData data => exact hdrv (drvSpares_readDmpData _)
  | setGyroSf div gyroLevel => exact hdrv (drvSpares_setGyroSf _ _)

/-- What the rewriting of both registers does to the scale. -/
theorem scaleOf_rewriteAccGyr (sensors : Sensors) (accel gyro : Byte → Byte) (regs : RegFile) :
    scaleOf (rewriteAccGyr sensors accel gyro regs) = {
      a := if sensors.has internalAcc
        then (AccelConfig.accelFsSel.get (accel (regs.get agb2RegAccelConfig))).setWidth 2
        else (scaleOf regs).a
      g := if sensors.has internalGyr
        then (GyroConfig1.gyroFsSel.get (gyro (regs.get agb2RegGyroConfig1))).setWidth 2
        else (scaleOf regs).g } := by
  have haccel : (rewriteAccGyr sensors accel gyro regs).get agb2RegAccelConfig =
      if sensors.has internalAcc then accel (regs.get agb2RegAccelConfig)
      else regs.get agb2RegAccelConfig := by
    rw [rewriteAccGyr, get_rewriteReg_of_ne _ _ (by decide), get_rewriteReg]
  have hgyro : (rewriteAccGyr sensors accel gyro regs).get agb2RegGyroConfig1 =
      if sensors.has internalGyr then gyro (regs.get agb2RegGyroConfig1)
      else regs.get agb2RegGyroConfig1 := by
    rw [rewriteAccGyr, get_rewriteReg, get_rewriteReg_of_ne _ _ (by decide)]
  rw [scaleOf, haccel, hgyro]
  congr 1
  · split
    · rfl
    · rfl
  · split
    · rfl
    · rfl

theorem flat_scaleOf (op : Operation) {pdev pdev' : Device} {regs regs' : RegFile}
    {tr : BusTrace RegFile} {x : PUnit}
    (hexec : Prog.Exec flatDevice (op.run.run pdev) regs tr (x, pdev') regs') :
    scaleOf regs' = scaleOf regs := by
  have hrewrite {sensors : Sensors} {accel gyro : Byte → Byte}
      (hrun : Prog.Exec flatDevice ((callIo (forAccGyr sensors
        (updateRegOr 2 agb2RegAccelConfig accel)
        (updateRegOr 2 agb2RegGyroConfig1 gyro))).run pdev) regs tr (x, pdev') regs')
      (haccel : ∀ b, AccelConfig.accelFsSel.get (accel b) = AccelConfig.accelFsSel.get b)
      (hgyro : ∀ b, GyroConfig1.gyroFsSel.get (gyro b) = GyroConfig1.gyroFsSel.get b) :
      scaleOf regs' = scaleOf regs := by
    obtain ⟨⟨retval, hcall⟩, -⟩ := exec_callIo.mp hrun
    rw [flat_forAccGyr hcall, scaleOf_rewriteAccGyr, haccel, hgyro]
    exact congrArg₂ Fss.mk (ite_self _) (ite_self _)
  by_cases hop : op.rewritesScale = true
  · -- these write both registers back, with other bits changed or none
    cases op with
    | setDlpfCfg sensors cfg => exact hrewrite hexec (fun _ => rfl) fun _ => rfl
    | enableDlpf sensors enable =>
      exact hrewrite hexec (fun _ => rfl) fun _ => BitField.get_set_of_apart _ _ (by decide) _ _
    | _ => cases hop
  · -- the rest never write to either register, nor in a burst over it
    have huses := spares_run op (Bool.eq_false_of_not_eq_true hop) pdev
    have haccel := flat_of_untouched (huses.mono fun _ h => h.1) hexec
    have hgyro := flat_of_untouched (huses.mono fun _ h => h.2) hexec
    rw [scaleOf, scaleOf, RegFile.get, RegFile.get, RegFile.get, RegFile.get, haccel, hgyro]

/-- A run of operations keeps the scale: induction on the run, with `flat_scaleOf` for each. -/
theorem flat_scaleOf_runAll (ops : List Operation) {pdev pdev' : Device} {regs regs' : RegFile}
    {tr : BusTrace RegFile} {x : PUnit}
    (hexec : Prog.Exec flatDevice ((runAll ops).run pdev) regs tr (x, pdev') regs') :
    scaleOf regs' = scaleOf regs := by
  induction ops generalizing pdev regs tr with
  | nil =>
    obtain ⟨-, -, rfl⟩ := hexec
    rfl
  | cons op ops ih =>
    rw [runAll, StateT.run_bind] at hexec
    obtain ⟨⟨y, pdev₁⟩, regs₁, t₁, t₂, -, hop, hops⟩ := (Prog.exec_bind _ _ _ _ _ _ _).mp hexec
    exact (ih hops).trans (flat_scaleOf op hop)

/-! ## What is reported in the end -/

theorem flat_setFullScale {mask : Sensors} {fss : Fss} {regs regs' : RegFile}
    {tr : BusTrace RegFile} {retval : Status}
    (hexec : Prog.Exec flatDevice (setFullScale mask fss) regs tr retval regs') :
    scaleOf regs' = {
      a := if mask.has internalAcc then fss.a else (scaleOf regs).a
      g := if mask.has internalGyr then fss.g else (scaleOf regs).g } := by
  have htrunc (v : BitVec 2) : (v.setWidth 8 &&& AccelConfig.accelFsSel.ones).setWidth 2 = v := by
    revert v
    decide
  rw [flat_forAccGyr hexec, scaleOf_rewriteAccGyr, BitField.get_set, BitField.get_set, htrunc]
  exact congrArg (Fss.mk _) (congrArg₂ _ (htrunc fss.g) rfl)

theorem flat_getAgmt {agmt : Agmt} {regs regs' : RegFile} {tr : BusTrace RegFile}
    {r : Read (Option Agmt)}
    (hexec : Prog.Exec flatDevice (getAgmt (some agmt)) regs tr r regs') :
    ∃ agmt', r.val = some agmt' ∧ agmt'.fss = scaleOf regs := by
  obtain ⟨garbage, regs₁, t₁, ⟨-, hregs₁⟩, -, raw, regs₂, t₂, ⟨-, hregs₂, -⟩, -, hexec₂⟩ := hexec
  obtain ⟨g₃, regs₃, t₃, ⟨-, hregs₃⟩, -, acfg, regs₄, t₄, ⟨hacfg, hregs₄, hacc⟩, -, hexec₄⟩ :=
    hexec₂
  obtain ⟨g₅, regs₅, t₅, ⟨-, hregs₅⟩, -, gcfg1, regs₆, t₆, ⟨hgcfg1, -, hgyr⟩, -, hexec₆⟩ := hexec₄
  obtain ⟨g₇, regs₇, t₇, -, -, acfg2, regs₈, t₈, -, -, -, rfl, -⟩ := hexec₆
  -- reads leave the registers as they are, so both bytes are those of `regs`
  have hacfgRegs : regs₃ = regs := by rw [hregs₃, hregs₂, hregs₁]
  have hgcfg1Regs : regs₅ = regs := by rw [hregs₅, hregs₄, hacfgRegs]
  have hbyte {reg : Byte} {answer : Read (Fin 1 → Byte)} {d : Fin 1 → Byte} {regs₀ : RegFile}
      (hok : answer.retval = Status.ok) (hval : answer.val = regs₀.load (addr reg) 1)
      (hregs : regs₀ = regs) :
      (if answer.retval = Status.ok then answer.val else d) 0 = regs.get reg := by
    rw [if_pos hok, hval, hregs]
    exact congrArg regs (BitVec.add_zero _)
  have hacfgVal := hbyte (d := fun _ => g₃ 0) hacfg (hacc rfl) hacfgRegs
  have hgcfg1Val := hbyte (d := fun _ => g₅ 0) hgcfg1 (hgyr rfl) hgcfg1Regs
  refine ⟨_, rfl, ?_⟩
  change Fss.mk ((AccelConfig.accelFsSel.get
      ((if acfg.retval = Status.ok then acfg.val else fun _ => g₃ 0) 0)).setWidth 2)
    ((GyroConfig1.gyroFsSel.get
      ((if gcfg1.retval = Status.ok then gcfg1.val else fun _ => g₅ 0) 0)).setWidth 2) = _
  rw [hacfgVal, hgcfg1Val]
  rfl

/-- `set_full_scale(mask, fss)`, any other operations, and the next `get_agmt`. -/
def measureAfter (mask : Sensors) (fss : Fss) (ops : List Operation) (agmt : Agmt) :
    Drv (Read (Option Agmt)) := do
  let _ ← setFullScale mask fss
  runAll ops
  getAgmt (some agmt)

/-- The sensors in the mask are reported with the new scale, the others with the one they had. -/
theorem full_scale_survives {mask : Sensors} {fss : Fss} {ops : List Operation} {agmt : Agmt}
    {pdev pdev' : Device} {regs regs' : RegFile} {tr : BusTrace RegFile} {r : Read (Option Agmt)}
    (hexec : Prog.Exec flatDevice ((measureAfter mask fss ops agmt).run pdev) regs tr (r, pdev')
      regs') :
    ∃ agmt', r.val = some agmt' ∧
      agmt'.fss.a = (if mask.has internalAcc then fss.a else (scaleOf regs).a) ∧
      agmt'.fss.g = if mask.has internalGyr then fss.g else (scaleOf regs).g := by
  unfold measureAfter at hexec
  rw [StateT.run_bind] at hexec
  obtain ⟨⟨retval, pdev₁⟩, regs₁, t₁, t₂, -, hset, hexec₁⟩ :=
    (Prog.exec_bind _ _ _ _ _ _ _).mp hexec
  rw [StateT.run_bind] at hexec₁
  obtain ⟨⟨x, pdev₂⟩, regs₂, t₃, t₄, -, hops, hget⟩ := (Prog.exec_bind _ _ _ _ _ _ _).mp hexec₁
  obtain ⟨agmt', hval, hfss⟩ := flat_getAgmt ((Prog.exec_lift _ _ _ _ _ _ _ _).mp hget).1
  have hscale := flat_setFullScale ((Prog.exec_lift _ _ _ _ _ _ _ _).mp hset).1
  rw [flat_scaleOf_runAll ops hops, hscale] at hfss
  exact ⟨agmt', hval, congrArg Fss.a hfss, congrArg Fss.g hfss⟩

/-- Operations that write next to the scale, around it and through the port. -/
def someOperations : List Operation := [.enableDlpf 3 true, .setSampleRate 3 ⟨19, 19⟩,
  .writeMems 0x0110 (some [1, 2, 3]), .i2cMasterEnable true]

theorem full_scale_survives_someOperations :
    ∃ agmt', (Prog.run registers ((measureAfter 1 ⟨gpm16, dps2000⟩ someOperations
        ⟨⟨0, 0, 0⟩, ⟨0, 0, 0⟩, 0, ⟨0, 0⟩⟩).run ⟨true, false, 255, 0, 0, 0, 0, 0, 0, 0, 0, 0, 0, 0⟩)
        fun _ => 0).1.1.val = some agmt' ∧ agmt'.fss.a = gpm16 ∧ agmt'.fss.g = 0 :=
  full_scale_survives (exec_registers _ _)

end SimuSound.Imu
