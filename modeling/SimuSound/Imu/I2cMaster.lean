import SimuSound.Imu.Bus

/-!
# I2cMaster — the auxiliary I2C master and its peripherals
-/

namespace SimuSound.Imu

open Reasoning

def i2cMasterPassthrough (passthrough : Bool) : Io Status :=
  updateReg 0 agb0RegIntPinConfig (IntPinCfg.bypassEn.set (bit passthrough))

/-- 345.6 kHz, good for up to 400 kHz -/
def mstCtrlAssign (ctrl : Byte) : Byte :=
  I2cMstCtrl.i2cMstPNsr.set 1 <| I2cMstCtrl.i2cMstClk.set 0x07 ctrl

def i2cMasterEnable (enable : Bool) : Io Status := do
  let retval ← i2cMasterPassthrough false
  if retval ≠ Status.ok then return retval
  let retval ← updateReg 3 agb3RegI2cMstCtrl mstCtrlAssign
  if retval ≠ Status.ok then return retval
  updateReg 0 agb0RegUserCtrl (UserCtrl.i2cMstEn.set (bit enable))

def i2cMasterReset : Io Status := updateReg 0 agb0RegUserCtrl (UserCtrl.i2cMstRst.set 1)

/-! ## Peripherals 0 to 3 -/

structure PeriphRegs where
  periphAddrReg : Byte
  periphRegReg : Byte
  periphCtrlReg : Byte
  periphDoReg : Byte

def periphRegs (peripheral : Byte) : Option PeriphRegs :=
  if peripheral = 0 then
    some ⟨agb3RegI2cPeriph0Addr, agb3RegI2cPeriph0Reg, agb3RegI2cPeriph0Ctrl, agb3RegI2cPeriph0Do⟩
  else if peripheral = 1 then
    some ⟨agb3RegI2cPeriph1Addr, agb3RegI2cPeriph1Reg, agb3RegI2cPeriph1Ctrl, agb3RegI2cPeriph1Do⟩
  else if peripheral = 2 then
    some ⟨agb3RegI2cPeriph2Addr, agb3RegI2cPeriph2Reg, agb3RegI2cPeriph2Ctrl, agb3RegI2cPeriph2Do⟩
  else if peripheral = 3 then
    some ⟨agb3RegI2cPeriph3Addr, agb3RegI2cPeriph3Reg, agb3RegI2cPeriph3Ctrl, agb3RegI2cPeriph3Do⟩
  else
    none

/-- What holds of the four peripherals holds of whatever `periphRegs` finds. -/
theorem periphRegs_forall {P : PeriphRegs → Prop}
    (h0 : P ⟨agb3RegI2cPeriph0Addr, agb3RegI2cPeriph0Reg, agb3RegI2cPeriph0Ctrl,
      agb3RegI2cPeriph0Do⟩)
    (h1 : P ⟨agb3RegI2cPeriph1Addr, agb3RegI2cPeriph1Reg, agb3RegI2cPeriph1Ctrl,
      agb3RegI2cPeriph1Do⟩)
    (h2 : P ⟨agb3RegI2cPeriph2Addr, agb3RegI2cPeriph2Reg, agb3RegI2cPeriph2Ctrl,
      agb3RegI2cPeriph2Do⟩)
    (h3 : P ⟨agb3RegI2cPeriph3Addr, agb3RegI2cPeriph3Reg, agb3RegI2cPeriph3Ctrl,
      agb3RegI2cPeriph3Do⟩) {peripheral : Byte} {regs : PeriphRegs}
    (h : periphRegs peripheral = some regs) : P regs := by
  unfold periphRegs at h
  split at h
  · exact Option.some.inj h ▸ h0
  · split at h
    · exact Option.some.inj h ▸ h1
    · split at h
      · exact Option.some.inj h ▸ h2
      · split at h
        · exact Option.some.inj h ▸ h3
        · cases h

/-- The arguments of `i2c_controller_configure_peripheral` after the peripheral's number. -/
structure PeriphConfig where
  addr : Byte
  reg : Byte
  len : Byte
  rw : Bool
  enable : Bool
  dataOnly : Bool
  grp : Bool
  swap : Bool
  dataOut : Byte

def PeriphConfig.address (c : PeriphConfig) (address : Byte) : Byte :=
  I2cPeriphXAddr.rnw.set (bit c.rw) <| I2cPeriphXAddr.id.set c.addr address

def PeriphConfig.ctrl (c : PeriphConfig) (ctrl : Byte) : Byte :=
  I2cPeriphXCtrl.byteSw.set (bit c.swap) <| I2cPeriphXCtrl.grp.set (bit c.grp) <|
    I2cPeriphXCtrl.regDis.set (bit c.dataOnly) <| I2cPeriphXCtrl.en.set (bit c.enable) <|
      I2cPeriphXCtrl.leng.set c.len ctrl

def i2cControllerConfigurePeripheral (peripheral : Byte) (c : PeriphConfig) : Io Status :=
  match periphRegs peripheral with
  | none => pure Status.paramErr
  | some regs => do
    let retval ← setBank 3
    if retval ≠ Status.ok then return retval
    let address ← uninitByte
    let retval ← writeByte regs.periphAddrReg (c.address address)
    if retval ≠ Status.ok then return retval
    let retval ← if c.rw then pure Status.ok else writeByte regs.periphDoReg c.dataOut
    if retval ≠ Status.ok then return retval
    let retval ← writeByte regs.periphRegReg c.reg
    if retval ≠ Status.ok then return retval
    let ctrl ← uninitByte
    writeByte regs.periphCtrlReg (c.ctrl ctrl)

/-! ## Peripheral 4 -/

def maxCycles : Nat := 1000

/-- The locals of the polling loop when it ends. -/
structure Poll where
  retval : Status
  i2cMstStatus : Byte
  count : Nat

/-- `while (!peripheral4Done)`, with `left = max_cycles - count` turns before the last one. -/
def pollPeriph4 : Nat → Byte → Io Poll
  | 0, i2cMstStatus => do
    let _ ← setBank 0
    let r ← readByte agb0RegI2cMstStatus i2cMstStatus
    pure ⟨r.retval, r.val, maxCycles + 1⟩
  | left + 1, i2cMstStatus => do
    let _ ← setBank 0
    let r ← readByte agb0RegI2cMstStatus i2cMstStatus
    if flag I2cMstStatus.i2cPeriph4Done r.val then
      pure ⟨r.retval, r.val, maxCycles - left⟩
    else
      pollPeriph4 left r.val

def Poll.txnFailed (p : Poll) : Bool :=
  flag I2cMstStatus.i2cPeriph4Nack p.i2cMstStatus || p.count ≥ maxCycles

def periph4Ctrl (sendRegAddr : Bool) (ctrl : Byte) : Byte :=
  I2cPeriph4Ctrl.regDis.set (bit !sendRegAddr) <| I2cPeriph4Ctrl.dly.set 0 <|
    I2cPeriph4Ctrl.intEn.set 0 <| I2cPeriph4Ctrl.en.set 1 ctrl

/-- The byte to send, if any, and the control register that starts the transaction. -/
def kickOff (rw : Bool) (ctrl b : Byte) : Io Status := do
  let _ ← setBank 3
  if rw then
    writeByte agb3RegI2cPeriph4Ctrl ctrl
  else
    let retval ← writeByte agb3RegI2cPeriph4Do b
    if retval ≠ Status.ok then return retval
    writeByte agb3RegI2cPeriph4Ctrl ctrl

/-- The byte received, if any; `retval` is what the last poll left. -/
def fetchByte (rw : Bool) (b : Byte) (retval : Status) : Io (Read Byte) :=
  if rw then readByte agb3RegI2cPeriph4Di b else pure ⟨retval, b⟩

/-- `while (nByte < len)` over the bytes still to move; `retval` is what the last step left, and
`i2cMstStatus` is carried from byte to byte.  The result holds the buffer from this byte on. -/
def periph4Bytes (rw : Bool) (ctrl : Byte) : List Byte → Byte → Status → Io (Read (List Byte))
  | [], _, retval => pure ⟨retval, []⟩
  | b :: data, i2cMstStatus, _ => do
    let retval ← kickOff rw ctrl b
    if retval ≠ Status.ok then return ⟨retval, b :: data⟩
    let poll ← pollPeriph4 maxCycles i2cMstStatus
    if poll.txnFailed then return ⟨Status.err, b :: data⟩
    -- neither the polls nor this read are checked before the next byte
    let r ← fetchByte rw b poll.retval
    let rest ← periph4Bytes rw ctrl data poll.i2cMstStatus r.retval
    return ⟨rest.retval, r.val :: rest.val⟩

def i2cControllerPeriph4Txn (addr reg : Byte) (data : List Byte) (rw sendRegAddr : Bool) :
    Io (Read (List Byte)) := do
  let addr := (if rw then 0x80 else 0x00) ||| addr
  -- what `set_bank` returns is overwritten
  let _ ← setBank 3
  let retval ← writeByte agb3RegI2cPeriph4Addr addr
  if retval ≠ Status.ok then return ⟨retval, data⟩
  let _ ← setBank 3
  let retval ← writeByte agb3RegI2cPeriph4Reg reg
  if retval ≠ Status.ok then return ⟨retval, data⟩
  let ctrl ← uninitByte
  let i2cMstStatus ← uninitByte
  periph4Bytes rw (periph4Ctrl sendRegAddr ctrl) data i2cMstStatus retval

def i2cMasterSingleW (addr reg data : Byte) : Io Status := do
  let r ← i2cControllerPeriph4Txn addr reg [data] false true
  pure r.retval

/-- `*data` holds `dest` before the call. -/
def i2cMasterSingleR (addr reg dest : Byte) : Io (Read Byte) := do
  let r ← i2cControllerPeriph4Txn addr reg [dest] true true
  pure ⟨r.retval, r.val.headD dest⟩

end SimuSound.Imu
