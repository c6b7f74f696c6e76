import SimuSound.Imu.Bus

/-!
# Power — reset, sleep, clock source and identity
-/

namespace SimuSound.Imu

open Reasoning

def whoAmI : Byte := 0x98

/-- The datasheet wants `0x81` in `PWR_MGMT_1`; the fields are assigned one by one. -/
def resetAssign (reg : Byte) : Byte :=
  PwrMgmt1.deviceReset.set 1 <| PwrMgmt1.sleep.set 0 <| PwrMgmt1.accelCycle.set 0 <|
    PwrMgmt1.gyroStandby.set 0 <| PwrMgmt1.tempDis.set 0 <| PwrMgmt1.clksel.set 1 reg

def swReset : Io Status := updateReg 0 agb0RegPwrMgmt1 resetAssign

def sleep (on : Bool) : Io Status := updateReg 0 agb0RegPwrMgmt1 (PwrMgmt1.sleep.set (bit on))

/-- The ICM-20689 has no low power mode, so the register is written back as it was read. -/
def lowPower (_on : Bool) : Io Status := updateReg 0 agb0RegPwrMgmt1 id

def setClockSource (source : BitVec 32) : Io Status :=
  updateReg 0 agb0RegPwrMgmt1 (PwrMgmt1.clksel.set (source.setWidth 8))

/-- `whoami` points at a byte that holds `dest`. -/
def getWhoAmI (dest : Byte) : Io (Read Byte) := do
  let _ ← setBank 0
  readByte agb0RegWhoAmI dest

def checkId : Io Status := do
  let r ← getWhoAmI 0x00
  if r.retval ≠ Status.ok then return r.retval
  if r.val ≠ whoAmI then return Status.wrongID
  return r.retval

def dataReady : Io Status := do
  let garbage ← uninitByte
  let retval ← setBank 0
  if retval ≠ Status.ok then return retval
  let r ← readByte agb0RegIntStatus1 garbage
  if r.retval ≠ Status.ok then return r.retval
  if IntStatus1.rawData0RdyInt.get r.val = 0 then return Status.noData
  return r.retval

/-- The fields cover the register, so that a reset request does not depend on what was read. -/
theorem resetAssign_eq (reg : Byte) : resetAssign reg = 0x81 :=
  (((((((BitField.agreeOn_zero reg 0).set _ _).set _ _).set _ _).set _ _).set _ _).set _ _).eq
    (by decide)

end SimuSound.Imu
