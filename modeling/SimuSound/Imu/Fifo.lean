import SimuSound.Imu.Bus

/-!
# Fifo — the FIFO and the enables of FIFO and DMP
-/

namespace SimuSound.Imu

open Reasoning

def enableFifo (enable : Bool) : Io Status :=
  updateReg 0 agb0RegUserCtrl (UserCtrl.fifoEn.set (bit enable))

def resetFifo : Io Status := do
  let garbage ← uninitByte
  let retval ← setBank 0
  if retval ≠ Status.ok then return retval
  let r ← readByte agb0RegFifoRst garbage
  if r.retval ≠ Status.ok then return r.retval
  let ctrl := FifoRst.fifoReset.set 0x1F r.val
  let retval ← writeByte agb0RegFifoRst ctrl
  if retval ≠ Status.ok then return retval
  -- the vendor's examples write 0x1F followed by 0x1E
  writeByte agb0RegFifoRst (FifoRst.fifoReset.set 0x1E ctrl)

def setFifoMode (snapshot : Bool) : Io Status :=
  updateReg 0 agb0RegFifoMode (FifoMode.fifoMode.set (if snapshot then 0x1F else 0))

/-- `*count` holds `count` before the call. -/
def getFifoCount (count : BitVec 16) : Io (Read (BitVec 16)) := do
  let ctrlh ← uninitByte
  let ctrll ← uninitByte
  let retval ← setBank 0
  if retval ≠ Status.ok then return ⟨retval, count⟩
  let h ← readByte agb0RegFifoCountH ctrlh
  if h.retval ≠ Status.ok then return ⟨h.retval, count⟩
  let l ← readByte agb0RegFifoCountL ctrll
  if l.retval ≠ Status.ok then return ⟨l.retval, count⟩
  return ⟨l.retval, (h.val &&& 0x1F) ++ l.val⟩

def readFifo {len : Nat} (data : Fin len → Byte) : Io (Read (Fin len → Byte)) := do
  let retval ← setBank 0
  if retval ≠ Status.ok then return ⟨retval, data⟩
  executeR agb0RegFifoRW data

def enableDmp (enable : Bool) : Io Status :=
  updateReg 0 agb0RegUserCtrl (UserCtrl.dmpEn.set (bit enable))

def resetDmp : Io Status := updateReg 0 agb0RegUserCtrl (UserCtrl.dmpRst.set 1)

end SimuSound.Imu
