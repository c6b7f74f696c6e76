import SimuSound.Imu.Bus

/-!
# Interrupts — the INT pin, the interrupt enables and the wake-on-motion threshold

A `NULL` pointer argument is `none`; a pointer to a structure is its contents before the call, and
the contents after the call are part of the result.
-/

namespace SimuSound.Imu

open Reasoning

def intPinCfg (write read : Option Byte) : Io (Read (Option Byte)) := do
  let retval ← setBank 0
  let retval ← match write with
    | none => pure retval
    | some w => writeByte agb0RegIntPinConfig w
  if retval ≠ Status.ok then return ⟨retval, read⟩
  match read with
  | none => return ⟨retval, none⟩
  | some dest =>
    let r ← readByte agb0RegIntPinConfig dest
    return ⟨r.retval, some r.val⟩

/-- `ICM_20948_INT_enable_t` -/
structure IntEnables where
  i2cMstIntEn : Bool
  dmpInt1En : Bool
  pllRdyEn : Bool
  womIntEn : Bool
  regWofEn : Bool
  rawData0RdyEn : Bool
  fifoOverflowEn4 : Bool
  fifoOverflowEn3 : Bool
  fifoOverflowEn2 : Bool
  fifoOverflowEn1 : Bool
  fifoOverflowEn0 : Bool
  fifoWmEn4 : Bool
  fifoWmEn3 : Bool
  fifoWmEn2 : Bool
  fifoWmEn1 : Bool
  fifoWmEn0 : Bool
  deriving DecidableEq

namespace IntEnables

def en0 (w : IntEnables) (en : Byte) : Byte :=
  IntEnable.regWofEn.set (bit w.regWofEn) <| IntEnable.reserved0.set 0 <|
    IntEnable.womIntEn.set (bit w.womIntEn) <| IntEnable.pllReadyEn.set (bit w.pllRdyEn) <|
      IntEnable.dmpInt1En.set (bit w.dmpInt1En) <| IntEnable.i2cMstIntEn.set (bit w.i2cMstIntEn) en

def en1 (w : IntEnables) (en : Byte) : Byte :=
  IntEnable1.reserved0.set 0 <| IntEnable1.rawData0RdyEn.set (bit w.rawData0RdyEn) en

def en2 (w : IntEnables) (en : Byte) : Byte :=
  IntEnable2.reserved0.set 0 <| IntEnable2.fifoOverflowEn0.set (bit w.fifoOverflowEn0) <|
    IntEnable2.fifoOverflowEn1.set (bit w.fifoOverflowEn1) <|
      IntEnable2.fifoOverflowEn2.set (bit w.fifoOverflowEn2) <|
        IntEnable2.fifoOverflowEn3.set (bit w.fifoOverflowEn3) <|
          IntEnable2.fifoOverflowEn4.set (bit w.fifoOverflowEn4) en

def en3 (w : IntEnables) (en : Byte) : Byte :=
  IntEnable3.reserved0.set 0 <| IntEnable3.fifoWmEn0.set (bit w.fifoWmEn0) <|
    IntEnable3.fifoWmEn1.set (bit w.fifoWmEn1) <| IntEnable3.fifoWmEn2.set (bit w.fifoWmEn2) <|
      IntEnable3.fifoWmEn3.set (bit w.fifoWmEn3) <| IntEnable3.fifoWmEn4.set (bit w.fifoWmEn4) en

def ofRegs (en0 en1 en2 en3 : Byte) : IntEnables where
  i2cMstIntEn := flag IntEnable.i2cMstIntEn en0
  dmpInt1En := flag IntEnable.dmpInt1En en0
  pllRdyEn := flag IntEnable.pllReadyEn en0
  womIntEn := flag IntEnable.womIntEn en0
  regWofEn := flag IntEnable.regWofEn en0
  rawData0RdyEn := flag IntEnable1.rawData0RdyEn en1
  fifoOverflowEn4 := flag IntEnable2.fifoOverflowEn4 en2
  fifoOverflowEn3 := flag IntEnable2.fifoOverflowEn3 en2
  fifoOverflowEn2 := flag IntEnable2.fifoOverflowEn2 en2
  fifoOverflowEn1 := flag IntEnable2.fifoOverflowEn1 en2
  fifoOverflowEn0 := flag IntEnable2.fifoOverflowEn0 en2
  fifoWmEn4 := flag IntEnable3.fifoWmEn4 en3
  fifoWmEn3 := flag IntEnable3.fifoWmEn3 en3
  fifoWmEn2 := flag IntEnable3.fifoWmEn2 en3
  fifoWmEn1 := flag IntEnable3.fifoWmEn1 en3
  fifoWmEn0 := flag IntEnable3.fifoWmEn0 en3

end IntEnables

/-- The write half of `int_enable`; `en` are its four locals. -/
def intEnableWrite (w : IntEnables) (en : Fin 4 → Byte) : Io Status := do
  let retval ← writeByte agb0RegIntEnable (w.en0 (en 0))
  if retval ≠ Status.ok then return retval
  let retval ← writeByte agb0RegIntEnable1 (w.en1 (en 1))
  if retval ≠ Status.ok then return retval
  let retval ← writeByte agb0RegIntEnable2 (w.en2 (en 2))
  if retval ≠ Status.ok then return retval
  writeByte agb0RegIntEnable3 (w.en3 (en 3))

/-- The read half; `*read` is assigned only when all four reads succeeded. -/
def intEnableRead (dest : IntEnables) (en : Fin 4 → Byte) : Io (Read IntEnables) := do
  let r0 ← readByte agb0RegIntEnable (en 0)
  if r0.retval ≠ Status.ok then return ⟨r0.retval, dest⟩
  let r1 ← readByte agb0RegIntEnable1 (en 1)
  if r1.retval ≠ Status.ok then return ⟨r1.retval, dest⟩
  let r2 ← readByte agb0RegIntEnable2 (en 2)
  if r2.retval ≠ Status.ok then return ⟨r2.retval, dest⟩
  let r3 ← readByte agb0RegIntEnable3 (en 3)
  if r3.retval ≠ Status.ok then return ⟨r3.retval, dest⟩
  return ⟨r3.retval, .ofRegs r0.val r1.val r2.val r3.val⟩

def intEnable (write read : Option IntEnables) : Io (Read (Option IntEnables)) := do
  let en ← uninit 4
  let retval ← setBank 0
  let retval ← match write with
    | none => pure retval
    | some w => intEnableWrite w en
  if retval ≠ Status.ok then return ⟨retval, read⟩
  match read with
  | none => return ⟨retval, none⟩
  | some dest =>
    -- what the write half left in the locals only survives a read that fails
    let r ← intEnableRead dest en
    return ⟨r.retval, some r.val⟩

def womThreshold (write read : Option Byte) : Io (Read (Option Byte)) := do
  let thr ← uninitByte
  let retval ← setBank 2
  let retval ← match write with
    | none => pure retval
    | some w => writeByte agb2RegAccelWomThr w
  if retval ≠ Status.ok then return ⟨retval, read⟩
  match read with
  | none => return ⟨retval, none⟩
  | some dest =>
    let r ← readByte agb2RegAccelWomThr thr
    return ⟨r.retval, some (if r.retval = Status.ok then r.val else dest)⟩

end SimuSound.Imu
