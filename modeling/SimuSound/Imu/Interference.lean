import SimuSound.Imu.Fifo
import SimuSound.Imu.I2cMaster
import SimuSound.Imu.Interrupts
import SimuSound.Imu.RegisterFile

/-!
# Interference — which settings a configuration call changes besides its own

The register map was written for four banks.  `ICM_20948_set_bank` selects none, so registers of
different banks with one address are one register.
-/

namespace SimuSound.Imu

open Reasoning BitField

/-! ## Settings -/

inductive Setting
  | interruptEnables
  | womThreshold
  | intPin
  | fifoEnable
  | dmpEnable
  | i2cMasterEnable
  | accelCycle
  | gyroCycle
  | i2cMasterCycle
  | accelDivider
  | gyroDivider

@[reducible] def Setting.Value : Setting → Type
  | .interruptEnables => IntEnables
  | .womThreshold | .intPin | .gyroDivider => Byte
  | .fifoEnable | .dmpEnable | .i2cMasterEnable => Bool
  | .accelCycle | .gyroCycle | .i2cMasterCycle => Bool
  | .accelDivider => Byte × Byte

/-- The setting as it reads back from the registers. -/
def Setting.read : (setting : Setting) → RegFile → setting.Value
  | .interruptEnables, regs => .ofRegs (regs.get agb0RegIntEnable) (regs.get agb0RegIntEnable1)
      (regs.get agb0RegIntEnable2) (regs.get agb0RegIntEnable3)
  | .womThreshold, regs => regs.get agb2RegAccelWomThr
  | .intPin, regs => regs.get agb0RegIntPinConfig
  | .fifoEnable, regs => flag UserCtrl.fifoEn (regs.get agb0RegUserCtrl)
  | .dmpEnable, regs => flag UserCtrl.dmpEn (regs.get agb0RegUserCtrl)
  | .i2cMasterEnable, regs => flag UserCtrl.i2cMstEn (regs.get agb0RegUserCtrl)
  | .accelCycle, regs => flag LpConfig.accelCycle (regs.get agb0RegLpConfig)
  | .gyroCycle, regs => flag LpConfig.gyroCycle (regs.get agb0RegLpConfig)
  | .i2cMasterCycle, regs => flag LpConfig.i2cMstCycle (regs.get agb0RegLpConfig)
  | .accelDivider, regs =>
    (AccelSmplrtDiv1.accelSmplrtDiv118.get (regs.get agb2RegAccelSmplrtDiv1),
      regs.get agb2RegAccelSmplrtDiv2)
  | .gyroDivider, regs => regs.get agb2RegGyroSmplrtDiv

/-- The bits of the four registers that `int_enable` reads. -/
def intEnableMask : Byte := 0x8F
def intEnable1Mask : Byte := 0x01
def intEnable2Mask : Byte := 0x1F
def intEnable3Mask : Byte := 0x1F

/-- The enables in `USER_CTRL` and the cycle bits in `LP_CONFIG`. -/
def userCtrlMask : Byte := 0xE0
def lpConfigMask : Byte := 0x70

/-- The registers of a setting, each with the bits that hold it. -/
def Setting.bits : Setting → List (Byte × Byte)
  | .interruptEnables => [(agb0RegIntEnable, intEnableMask), (agb0RegIntEnable1, intEnable1Mask),
      (agb0RegIntEnable2, intEnable2Mask), (agb0RegIntEnable3, intEnable3Mask)]
  | .womThreshold => [(agb2RegAccelWomThr, BitVec.allOnes 8)]
  | .intPin => [(agb0RegIntPinConfig, BitVec.allOnes 8)]
  | .fifoEnable => [(agb0RegUserCtrl, UserCtrl.fifoEn.mask)]
  | .dmpEnable => [(agb0RegUserCtrl, UserCtrl.dmpEn.mask)]
  | .i2cMasterEnable => [(agb0RegUserCtrl, UserCtrl.i2cMstEn.mask)]
  | .accelCycle => [(agb0RegLpConfig, LpConfig.accelCycle.mask)]
  | .gyroCycle => [(agb0RegLpConfig, LpConfig.gyroCycle.mask)]
  | .i2cMasterCycle => [(agb0RegLpConfig, LpConfig.i2cMstCycle.mask)]
  | .accelDivider => [(agb2RegAccelSmplrtDiv1, AccelSmplrtDiv1.accelSmplrtDiv118.mask),
      (agb2RegAccelSmplrtDiv2, BitVec.allOnes 8)]
  | .gyroDivider => [(agb2RegGyroSmplrtDiv, BitVec.allOnes 8)]

/-- A one-bit field read as a `bool` holds the bit. -/
theorem flag_eq_getLsbD (f : BitField 8) (hwidth : f.width = 1) (b : Byte) :
    flag f b = b.getLsbD f.lsb := by
  have hbit : (f.get b).getLsbD 0 = b.getLsbD f.lsb := by
    rw [getLsbD_get, hwidth, Nat.add_zero]
    exact Bool.and_true _
  rw [flag, ← hbit]
  by_cases h : f.get b = 0
  · rw [h]
    rfl
  · have hone : (f.get b).getLsbD 0 = true := by
      by_contra hne
      refine h (BitVec.eq_of_getLsbD_eq fun i hi => ?_)
      rw [getLsbD_get, hwidth]
      by_cases hi0 : i < 1
      · obtain rfl : i = 0 := Nat.lt_one_iff.mp hi0
        rw [getLsbD_get, hwidth] at hne
        simpa using hne
      · simp [hi0]
    rw [hone, decide_eq_true h]

theorem flag_eq_flag_iff (f : BitField 8) (hwidth : f.width = 1) (a b : Byte) :
    flag f a = flag f b ↔ AgreeOn f.mask a b := by
  rw [agreeOn_iff, flag_eq_getLsbD f hwidth, flag_eq_getLsbD f hwidth]
  have hfits := f.fits
  constructor
  · intro h i hi hm
    rw [getLsbD_mask f i hi, decide_eq_true_eq] at hm
    unfold Covers at hm
    obtain rfl : i = f.lsb := by omega
    exact h
  · intro h
    refine h f.lsb (by omega) ?_
    rw [getLsbD_mask f _ (by omega), decide_eq_true_eq]
    unfold Covers
    omega

theorem ofRegs_eq_iff (a b c d a' b' c' d' : Byte) :
    IntEnables.ofRegs a b c d = IntEnables.ofRegs a' b' c' d' ↔
      AgreeOn intEnableMask a a' ∧ AgreeOn intEnable1Mask b b' ∧ AgreeOn intEnable2Mask c c' ∧
        AgreeOn intEnable3Mask d d' := by
  have h0 : intEnableMask = IntEnable.i2cMstIntEn.mask ||| (IntEnable.dmpInt1En.mask |||
    (IntEnable.pllReadyEn.mask ||| (IntEnable.womIntEn.mask ||| IntEnable.regWofEn.mask))) := rfl
  have h1 : intEnable1Mask = IntEnable1.rawData0RdyEn.mask := rfl
  have h2 : intEnable2Mask = IntEnable2.fifoOverflowEn4.mask |||
    (IntEnable2.fifoOverflowEn3.mask ||| (IntEnable2.fifoOverflowEn2.mask |||
      (IntEnable2.fifoOverflowEn1.mask ||| IntEnable2.fifoOverflowEn0.mask))) := rfl
  have h3 : intEnable3Mask = IntEnable3.fifoWmEn4.mask ||| (IntEnable3.fifoWmEn3.mask |||
    (IntEnable3.fifoWmEn2.mask |||
      (IntEnable3.fifoWmEn1.mask ||| IntEnable3.fifoWmEn0.mask))) := rfl
  rw [h0, h1, h2, h3, IntEnables.ofRegs, IntEnables.ofRegs, IntEnables.mk.injEq]
  simp (disch := decide) only [agreeOn_or, flag_eq_flag_iff, and_assoc]

/-- Two register files hold the same setting when they agree on its bits. -/
theorem read_eq_iff (setting : Setting) (regs regs' : RegFile) :
    setting.read regs' = setting.read regs ↔
      ∀ p ∈ setting.bits, AgreeOn p.2 (regs'.get p.1) (regs.get p.1) := by
  cases setting <;>
    simp (disch := decide) only [Setting.read, Setting.bits, List.forall_mem_cons,
      List.not_mem_nil, false_imp_iff, implies_true, and_true, ofRegs_eq_iff, flag_eq_flag_iff,
      Prod.mk.injEq, get_eq_get_iff, agreeOn_allOnes]

/-! ## Calls -/

/-- A call that configures something; the pointers of the interrupt functions may also ask for what
was written to be read back. -/
inductive ConfigCall
  | setSampleRate (sensors : Sensors) (smplrt : Smplrt)
  | womThreshold (write : Byte) (read : Option Byte)
  | configurePeripheral (peripheral : Byte) (c : PeriphConfig)
  | intEnable (write : IntEnables) (read : Option IntEnables)
  | setSampleMode (sensors : Sensors) (mode : BitVec 32)
  | enableFifo (enable : Bool)
  | enableDmp (enable : Bool)
  | intPinCfg (write : Byte) (read : Option Byte)

def ConfigCall.run : ConfigCall → Io PUnit
  | .setSampleRate sensors smplrt => do let _ ← Imu.setSampleRate sensors smplrt
  | .womThreshold write read => do let _ ← Imu.womThreshold (some write) read
  | .configurePeripheral peripheral c => do let _ ← i2cControllerConfigurePeripheral peripheral c
  | .intEnable write read => do let _ ← Imu.intEnable (some write) read
  | .setSampleMode sensors mode => do let _ ← Imu.setSampleMode sensors mode
  | .enableFifo enable => do let _ ← Imu.enableFifo enable
  | .enableDmp enable => do let _ ← Imu.enableDmp enable
  | .intPinCfg write read => do let _ ← Imu.intPinCfg (some write) read

/-- The settings that the call names. -/
@[simp] def ConfigCall.names : ConfigCall → Setting → Bool
  | .setSampleRate sensors _, .accelDivider => sensors.has internalAcc
  | .setSampleRate sensors _, .gyroDivider => sensors.has internalGyr
  | .womThreshold _ _, .womThreshold => true
  | .intEnable _ _, .interruptEnables => true
  | .setSampleMode sensors _, .accelCycle => sensors.has internalAcc
  | .setSampleMode sensors _, .gyroCycle => sensors.has internalGyr
  | .setSampleMode sensors _, .i2cMasterCycle => sensors.has internalMst
  | .enableFifo _, .fifoEnable => true
  | .enableDmp _, .dmpEnable => true
  | .intPinCfg _ _, .intPin => true
  | _, _ => false

/-- The registers of another bank at the addresses that the call writes hold already, in the bits
that matter, what is written. -/
@[simp] def ConfigCall.KeepsApart : ConfigCall → RegFile → Prop
  -- `ACCEL_SMPLRT_DIV_1`, always 0, and `ACCEL_SMPLRT_DIV_2` are `INT_ENABLE` and `INT_ENABLE_1`
  | .setSampleRate sensors smplrt, regs => sensors.has internalAcc →
      AgreeOn intEnableMask 0 (regs.get agb0RegIntEnable) ∧
      AgreeOn intEnable1Mask (smplrt.a.setWidth 8) (regs.get agb0RegIntEnable1)
  -- `ACCEL_WOM_THR` is `INT_ENABLE_3`
  | .womThreshold write _, regs => AgreeOn intEnable3Mask write (regs.get agb0RegIntEnable3)
  | .intEnable write _, regs =>
      AgreeOn AccelSmplrtDiv1.accelSmplrtDiv118.mask (write.en0 0)
        (regs.get agb2RegAccelSmplrtDiv1) ∧
      write.en1 0 = regs.get agb2RegAccelSmplrtDiv2 ∧ write.en3 0 = regs.get agb2RegAccelWomThr
  | .configurePeripheral peripheral c, regs =>
    -- `I2C_PERIPH0_ADDR` is `USER_CTRL` and `I2C_PERIPH0_CTRL` is `LP_CONFIG`
    if peripheral = 0 then
      AgreeOn userCtrlMask (c.address 0) (regs.get agb0RegUserCtrl) ∧
      AgreeOn lpConfigMask (c.ctrl 0) (regs.get agb0RegLpConfig)
    -- `I2C_PERIPH3_ADDR` is `INT_PIN_CFG`, the others are the interrupt enables and the divider
    else if peripheral = 3 then
      c.address 0 = regs.get agb0RegIntPinConfig ∧
      AgreeOn intEnableMask c.reg (regs.get agb0RegIntEnable) ∧
      c.ctrl 0 = regs.get agb0RegIntEnable1 ∧
      (c.rw = false → AgreeOn intEnable2Mask c.dataOut (regs.get agb0RegIntEnable2))
    else True
  | .setSampleMode _ _, _ | .enableFifo _, _ | .enableDmp _, _ | .intPinCfg _ _, _ => True

/-! ## The registers after a call -/

def PeriphRegs.after (periph : PeriphRegs) (c : PeriphConfig) (regs : RegFile) : RegFile :=
  let regs := regs.set periph.periphAddrReg (c.address 0)
  let regs := if c.rw then regs else regs.set periph.periphDoReg c.dataOut
  (regs.set periph.periphRegReg c.reg).set periph.periphCtrlReg (c.ctrl 0)

@[simp] def ConfigCall.after : ConfigCall → RegFile → RegFile
  | .setSampleRate sensors smplrt, regs =>
    let regs := if sensors.has internalAcc
      then (regs.set agb2RegAccelSmplrtDiv1 0).set agb2RegAccelSmplrtDiv2 (smplrt.a.setWidth 8)
      else regs
    if sensors.has internalGyr then regs.set agb2RegGyroSmplrtDiv smplrt.g else regs
  | .womThreshold write _, regs => regs.set agb2RegAccelWomThr write
  | .configurePeripheral peripheral c, regs =>
    match periphRegs peripheral with
    | none => regs
    | some periph => periph.after c regs
  | .intEnable write _, regs =>
    (((regs.set agb0RegIntEnable (write.en0 0)).set agb0RegIntEnable1 (write.en1 0)).set
      agb0RegIntEnable2 (write.en2 0)).set agb0RegIntEnable3 (write.en3 0)
  | .setSampleMode sensors mode, regs =>
    regs.set agb0RegLpConfig (sampleModeAssign sensors mode (regs.get agb0RegLpConfig))
  | .enableFifo enable, regs =>
    regs.set agb0RegUserCtrl (UserCtrl.fifoEn.set (bit enable) (regs.get agb0RegUserCtrl))
  | .enableDmp enable, regs =>
    regs.set agb0RegUserCtrl (UserCtrl.dmpEn.set (bit enable) (regs.get agb0RegUserCtrl))
  | .intPinCfg write _, regs => regs.set agb0RegIntPinConfig write

/-! ## The condition -/

theorem forall_setting (P : Setting → Prop) : (∀ setting, P setting) ↔
    P .interruptEnables ∧ P .womThreshold ∧ P .intPin ∧ P .fifoEnable ∧ P .dmpEnable ∧
      P .i2cMasterEnable ∧ P .accelCycle ∧ P .gyroCycle ∧ P .i2cMasterCycle ∧ P .accelDivider ∧
      P .gyroDivider := by
  constructor
  · intro h
    exact ⟨h _, h _, h _, h _, h _, h _, h _, h _, h _, h _, h _⟩
  · intro ⟨h₁, h₂, h₃, h₄, h₅, h₆, h₇, h₈, h₉, h₁₀, h₁₁⟩ setting
    cases setting <;> assumption

/-- The call leaves every setting as it was that it does not name. -/
def KeepsOthers (call : ConfigCall) (regs regs' : RegFile) : Prop :=
  ∀ setting, call.names setting = false → setting.read regs' = setting.read regs

/-- The bits of a register are as they were. -/
def SameBits (regs regs' : RegFile) (m reg : Byte) : Prop :=
  AgreeOn m (regs'.get reg) (regs.get reg)

/-- The same register by register. -/
theorem keepsOthers_iff (call : ConfigCall) (regs regs' : RegFile) :
    KeepsOthers call regs regs' ↔
      ∀ setting, call.names setting = false → ∀ p ∈ setting.bits, SameBits regs regs' p.2 p.1 := by
  simp only [KeepsOthers, read_eq_iff, SameBits]

/-- And setting by setting. -/
theorem keepsOthers_iff_sameBits (call : ConfigCall) (regs regs' : RegFile) :
    KeepsOthers call regs regs' ↔
      (call.names .interruptEnables = false →
        SameBits regs regs' intEnableMask agb0RegIntEnable ∧
        SameBits regs regs' intEnable1Mask agb0RegIntEnable1 ∧
        SameBits regs regs' intEnable2Mask agb0RegIntEnable2 ∧
        SameBits regs regs' intEnable3Mask agb0RegIntEnable3) ∧
      (call.names .womThreshold = false →
        SameBits regs regs' (BitVec.allOnes 8) agb2RegAccelWomThr) ∧
      (call.names .intPin = false → SameBits regs regs' (BitVec.allOnes 8) agb0RegIntPinConfig) ∧
      (call.names .fifoEnable = false → SameBits regs regs' UserCtrl.fifoEn.mask agb0RegUserCtrl) ∧
      (call.names .dmpEnable = false → SameBits regs regs' UserCtrl.dmpEn.mask agb0RegUserCtrl) ∧
      (call.names .i2cMasterEnable = false →
        SameBits regs regs' UserCtrl.i2cMstEn.mask agb0RegUserCtrl) ∧
      (call.names .accelCycle = false →
        SameBits regs regs' LpConfig.accelCycle.mask agb0RegLpConfig) ∧
      (call.names .gyroCycle = false →
        SameBits regs regs' LpConfig.gyroCycle.mask agb0RegLpConfig) ∧
      (call.names .i2cMasterCycle = false →
        SameBits regs regs' LpConfig.i2cMstCycle.mask agb0RegLpConfig) ∧
      (call.names .accelDivider = false →
        SameBits regs regs' AccelSmplrtDiv1.accelSmplrtDiv118.mask agb2RegAccelSmplrtDiv1 ∧
        SameBits regs regs' (BitVec.allOnes 8) agb2RegAccelSmplrtDiv2) ∧
      (call.names .gyroDivider = false →
        SameBits regs regs' (BitVec.allOnes 8) agb2RegGyroSmplrtDiv) := by
  rw [keepsOthers_iff, forall_setting]
  simp only [Setting.bits, List.forall_mem_cons, List.not_mem_nil, false_imp_iff, implies_true,
    and_true]

section
variable (regs regs' : RegFile) (m : Byte) {reg a : Byte}

theorem sameBits_refl : SameBits regs regs m reg ↔ True := iff_of_true (agreeOn_refl _ _) trivial

theorem sameBits_set_of_ne (h : addr reg ≠ addr a) (b : Byte) :
    SameBits regs (regs'.set a b) m reg ↔ SameBits regs regs' m reg := by
  rw [SameBits, RegFile.get_set_of_ne _ h, SameBits]

theorem sameBits_set_of_eq (h : addr reg = addr a) (b : Byte) :
    SameBits regs (regs'.set a b) m reg ↔ AgreeOn m b (regs.get reg) := by
  rw [SameBits, RegFile.get_set_of_eq _ h]

end

theorem keeps_womThreshold (write : Byte) (read : Option Byte) (regs : RegFile) :
    KeepsOthers (.womThreshold write read) regs
        ((ConfigCall.womThreshold write read).after regs) ↔
      (ConfigCall.womThreshold write read).KeepsApart regs := by
  rw [keepsOthers_iff_sameBits]
  simp (disch := decide) only [ConfigCall.names, ConfigCall.after, ConfigCall.KeepsApart,
    sameBits_set_of_ne, sameBits_set_of_eq, sameBits_refl, true_imp_iff, implies_true, true_and,
    and_true, Bool.true_eq_false, false_imp_iff]

theorem keeps_intEnable (write : IntEnables) (read : Option IntEnables) (regs : RegFile) :
    KeepsOthers (.intEnable write read) regs ((ConfigCall.intEnable write read).after regs) ↔
      (ConfigCall.intEnable write read).KeepsApart regs := by
  rw [keepsOthers_iff_sameBits]
  simp (disch := decide) only [ConfigCall.names, ConfigCall.after, ConfigCall.KeepsApart,
    sameBits_set_of_ne, sameBits_set_of_eq, sameBits_refl, true_imp_iff, implies_true, true_and,
    and_true, Bool.true_eq_false, false_imp_iff, agreeOn_allOnes]
  rw [and_comm, and_assoc]

theorem keeps_setSampleRate (sensors : Sensors) (smplrt : Smplrt) (regs : RegFile) :
    KeepsOthers (.setSampleRate sensors smplrt) regs
        ((ConfigCall.setSampleRate sensors smplrt).after regs) ↔
      (ConfigCall.setSampleRate sensors smplrt).KeepsApart regs := by
  rw [keepsOthers_iff_sameBits]
  -- which of the two branches are taken decides which registers are written
  cases ha : sensors.has internalAcc <;> cases hg : sensors.has internalGyr <;>
    simp (disch := decide) only [ConfigCall.names, ConfigCall.after, ConfigCall.KeepsApart, ha, hg,
      Bool.false_eq_true, if_true, if_false, sameBits_set_of_ne, sameBits_set_of_eq, sameBits_refl,
      true_imp_iff, implies_true, and_true, Bool.true_eq_false, false_imp_iff]

/-! ### Peripherals -/

/-- Peripheral 0 lies over `USER_CTRL` and `LP_CONFIG`. -/
theorem keeps_peripheral0 (c : PeriphConfig) (regs : RegFile) :
    KeepsOthers (.configurePeripheral 0 c) regs ((ConfigCall.configurePeripheral 0 c).after regs) ↔
      AgreeOn userCtrlMask (c.address 0) (regs.get agb0RegUserCtrl) ∧
        AgreeOn lpConfigMask (c.ctrl 0) (regs.get agb0RegLpConfig) := by
  have huser : userCtrlMask =
      UserCtrl.fifoEn.mask ||| (UserCtrl.dmpEn.mask ||| UserCtrl.i2cMstEn.mask) := rfl
  have hlp : lpConfigMask =
      LpConfig.accelCycle.mask ||| (LpConfig.gyroCycle.mask ||| LpConfig.i2cMstCycle.mask) := rfl
  have hafter : (ConfigCall.configurePeripheral 0 c).after regs =
      PeriphRegs.after ⟨agb3RegI2cPeriph0Addr, agb3RegI2cPeriph0Reg, agb3RegI2cPeriph0Ctrl,
        agb3RegI2cPeriph0Do⟩ c regs := rfl
  rw [hafter, keepsOthers_iff_sameBits, huser, hlp]
  cases hrw : c.rw <;>
    simp (disch := decide) only [ConfigCall.names, PeriphRegs.after, hrw, Bool.false_eq_true,
      if_true, if_false, sameBits_set_of_ne, sameBits_set_of_eq, sameBits_refl, true_imp_iff,
      implies_true, true_and, and_true, and_assoc, agreeOn_or]

/-- Peripheral 3 lies over `INT_PIN_CFG`, the interrupt enables and the divider. -/
theorem keeps_peripheral3 (c : PeriphConfig) (regs : RegFile) :
    KeepsOthers (.configurePeripheral 3 c) regs ((ConfigCall.configurePeripheral 3 c).after regs) ↔
      c.address 0 = regs.get agb0RegIntPinConfig ∧
      AgreeOn intEnableMask c.reg (regs.get agb0RegIntEnable) ∧
      c.ctrl 0 = regs.get agb0RegIntEnable1 ∧
      (c.rw = false → AgreeOn intEnable2Mask c.dataOut (regs.get agb0RegIntEnable2)) := by
  -- the high part of the divider lies under bits of `INT_ENABLE` that have to agree anyway
  have hmask : intEnableMask =
      intEnableMask ||| AccelSmplrtDiv1.accelSmplrtDiv118.mask := rfl
  have hdiv : AgreeOn intEnableMask c.reg (regs.get agb0RegIntEnable) →
      AgreeOn AccelSmplrtDiv1.accelSmplrtDiv118.mask c.reg (regs.get agb2RegAccelSmplrtDiv1) := by
    intro h
    rw [hmask, agreeOn_or] at h
    exact h.2
  have hen1 : c.ctrl 0 = regs.get agb0RegIntEnable1 →
      AgreeOn intEnable1Mask (c.ctrl 0) (regs.get agb0RegIntEnable1) := by
    intro h
    rw [h]
    exact agreeOn_refl _ _
  have hafter : (ConfigCall.configurePeripheral 3 c).after regs =
      PeriphRegs.after ⟨agb3RegI2cPeriph3Addr, agb3RegI2cPeriph3Reg, agb3RegI2cPeriph3Ctrl,
        agb3RegI2cPeriph3Do⟩ c regs := rfl
  rw [hafter, keepsOthers_iff_sameBits]
  simp only [ConfigCall.names, PeriphRegs.after, true_imp_iff]
  -- only a write fills `I2C_PERIPH3_DO`
  cases c.rw with
  | true =>
    simp (disch := decide) only [if_true, sameBits_set_of_ne, sameBits_set_of_eq, sameBits_refl,
      true_and, and_true, agreeOn_allOnes]
    constructor
    · intro ⟨⟨hreg, _⟩, haddr, _, hctrl⟩
      exact ⟨haddr, hreg, hctrl, fun h => absurd h (by decide)⟩
    · intro ⟨haddr, hreg, hctrl, _⟩
      exact ⟨⟨hreg, hen1 hctrl⟩, haddr, hdiv hreg, hctrl⟩
  | false =>
    simp (disch := decide) only [Bool.false_eq_true, if_false, sameBits_set_of_ne,
      sameBits_set_of_eq, sameBits_refl, true_and, and_true, and_assoc, agreeOn_allOnes]
    constructor
    · intro ⟨hreg, _, hdo, haddr, _, hctrl⟩
      exact ⟨haddr, hreg, hctrl, fun _ => hdo⟩
    · intro ⟨haddr, hreg, hctrl, hdo⟩
      exact ⟨hreg, hen1 hctrl, hdo trivial, haddr, hdiv hreg, hctrl⟩

/-- No setting lies in the registers of the peripheral. -/
def PeriphRegs.Clear (periph : PeriphRegs) : Prop :=
  ∀ setting : Setting, ∀ p ∈ setting.bits, ∀ a ∈ [periph.periphAddrReg, periph.periphRegReg,
    periph.periphCtrlReg, periph.periphDoReg], addr p.1 ≠ addr a

/-- The same as a conjunction of inequalities between addresses. -/
theorem PeriphRegs.clear_iff (periph : PeriphRegs) : periph.Clear ↔
    ∀ setting : Setting, (setting.bits.all fun p =>
      [periph.periphAddrReg, periph.periphRegReg, periph.periphCtrlReg, periph.periphDoReg].all
        fun a => addr p.1 != addr a) = true := by
  simp only [Clear, List.all_eq_true, bne_iff_ne]

theorem PeriphRegs.Clear.get_after {periph : PeriphRegs} (h : periph.Clear) (c : PeriphConfig)
    (regs : RegFile) {setting : Setting} {p : Byte × Byte} (hp : p ∈ setting.bits) :
    (periph.after c regs).get p.1 = regs.get p.1 := by
  have hregs := h setting p hp
  simp only [List.forall_mem_cons, List.not_mem_nil, false_imp_iff, implies_true, and_true] at hregs
  obtain ⟨haddr, hreg, hctrl, hdo⟩ := hregs
  rw [PeriphRegs.after, RegFile.get_set_of_ne _ hctrl, RegFile.get_set_of_ne _ hreg]
  cases c.rw with
  | true => exact RegFile.get_set_of_ne _ haddr _
  | false => exact (RegFile.get_set_of_ne _ hdo _).trans (RegFile.get_set_of_ne _ haddr _)

theorem keeps_configurePeripheral (peripheral : Byte) (c : PeriphConfig) (regs : RegFile) :
    KeepsOthers (.configurePeripheral peripheral c) regs
        ((ConfigCall.configurePeripheral peripheral c).after regs) ↔
      (ConfigCall.configurePeripheral peripheral c).KeepsApart regs := by
  have hclear {periph : PeriphRegs} (hregs : periphRegs peripheral = some periph)
      (h : periph.Clear) : KeepsOthers (.configurePeripheral peripheral c) regs
        ((ConfigCall.configurePeripheral peripheral c).after regs) := by
    rw [keepsOthers_iff, ConfigCall.after, hregs]
    intro setting _ p hp
    change AgreeOn p.2 ((periph.after c regs).get p.1) (regs.get p.1)
    rw [h.get_after c regs hp]
    exact agreeOn_refl _ _
  rw [ConfigCall.KeepsApart]
  by_cases h0 : peripheral = 0
  · rw [if_pos h0, h0]
    exact keeps_peripheral0 c regs
  · rw [if_neg h0]
    by_cases h3 : peripheral = 3
    · rw [if_pos h3, h3]
      exact keeps_peripheral3 c regs
    · rw [if_neg h3, iff_true]
      by_cases h1 : peripheral = 1
      · refine hclear (by rw [h1]; rfl) ((PeriphRegs.clear_iff _).mpr fun setting => ?_)
        cases setting <;> rfl
      · by_cases h2 : peripheral = 2
        · refine hclear (by rw [h2]; rfl) ((PeriphRegs.clear_iff _).mpr fun setting => ?_)
          cases setting <;> rfl
        · -- there is no such peripheral, and nothing is written
          have hnone : periphRegs peripheral = none := by
            rw [periphRegs, if_neg h0, if_neg h1, if_neg h2, if_neg h3]
          rw [ConfigCall.after, hnone]
          exact fun _ _ => rfl

/-! ### Calls that never interfere -/

theorem agreeOn_sampleModeAssign {m : Byte} (sensors : Sensors) (mode : BitVec 32) (b : Byte)
    (hacc : sensors.has internalAcc = true → m &&& LpConfig.accelCycle.mask = 0)
    (hgyr : sensors.has internalGyr = true → m &&& LpConfig.gyroCycle.mask = 0)
    (hmst : sensors.has internalMst = true → m &&& LpConfig.i2cMstCycle.mask = 0) :
    AgreeOn m (sampleModeAssign sensors mode b) b := by
  have hstep (mask : Sensors) (field : BitField 8) (v reg : Byte)
      (h : sensors.has mask = true → m &&& field.mask = 0) :
      AgreeOn m (if sensors.has mask then field.set v reg else reg) reg := by
    split
    · rename_i hsel
      exact agreeOn_set field (h hsel) v reg
    · exact agreeOn_refl m reg
  -- the three assignments, from the last to the first
  exact ((hstep internalMst _ _ _ hmst).trans (hstep internalGyr _ _ _ hgyr)).trans
    (hstep internalAcc _ _ _ hacc)

theorem keeps_setSampleMode (sensors : Sensors) (mode : BitVec 32) (regs : RegFile) :
    KeepsOthers (.setSampleMode sensors mode) regs
      ((ConfigCall.setSampleMode sensors mode).after regs) := by
  have hagree {m : Byte} :=
    agreeOn_sampleModeAssign (m := m) sensors mode (regs.get agb0RegLpConfig)
  rw [keepsOthers_iff_sameBits]
  simp (disch := decide) only [ConfigCall.names, ConfigCall.after, sameBits_set_of_ne,
    sameBits_set_of_eq, sameBits_refl, implies_true, and_true, true_and]
  refine ⟨fun hacc => ?_, fun hgyr => ?_, fun hmst => ?_⟩
  · exact hagree (fun h => absurd (h.symm.trans hacc) (by decide)) (fun _ => by decide)
      fun _ => by decide
  · exact hagree (fun _ => by decide) (fun h => absurd (h.symm.trans hgyr) (by decide))
      fun _ => by decide
  · exact hagree (fun _ => by decide) (fun _ => by decide)
      fun h => absurd (h.symm.trans hmst) (by decide)

theorem keeps_enableFifo (enable : Bool) (regs : RegFile) :
    KeepsOthers (.enableFifo enable) regs ((ConfigCall.enableFifo enable).after regs) := by
  rw [keepsOthers_iff_sameBits]
  simp (disch := decide) only [ConfigCall.names, ConfigCall.after, sameBits_set_of_ne,
    sameBits_set_of_eq, sameBits_refl, agreeOn_set, implies_true, and_true, Bool.true_eq_false,
    false_imp_iff]

theorem keeps_enableDmp (enable : Bool) (regs : RegFile) :
    KeepsOthers (.enableDmp enable) regs ((ConfigCall.enableDmp enable).after regs) := by
  rw [keepsOthers_iff_sameBits]
  simp (disch := decide) only [ConfigCall.names, ConfigCall.after, sameBits_set_of_ne,
    sameBits_set_of_eq, sameBits_refl, agreeOn_set, implies_true, and_true, Bool.true_eq_false,
    false_imp_iff]

theorem keeps_intPinCfg (write : Byte) (read : Option Byte) (regs : RegFile) :
    KeepsOthers (.intPinCfg write read) regs ((ConfigCall.intPinCfg write read).after regs) := by
  rw [keepsOthers_iff_sameBits]
  simp (disch := decide) only [ConfigCall.names, ConfigCall.after, sameBits_set_of_ne,
    sameBits_refl, implies_true, and_true, Bool.true_eq_false, false_imp_iff]

theorem keepsOthers_after_iff (call : ConfigCall) (regs : RegFile) :
    KeepsOthers call regs (call.after regs) ↔ call.KeepsApart regs := by
  cases call with
  | setSampleRate sensors smplrt => exact keeps_setSampleRate sensors smplrt regs
  | womThreshold write read => exact keeps_womThreshold write read regs
  | configurePeripheral peripheral c => exact keeps_configurePeripheral peripheral c regs
  | intEnable write read => exact keeps_intEnable write read regs
  | setSampleMode sensors mode => exact iff_of_true (keeps_setSampleMode sensors mode regs) trivial
  | enableFifo enable => exact iff_of_true (keeps_enableFifo enable regs) trivial
  | enableDmp enable => exact iff_of_true (keeps_enableDmp enable regs) trivial
  | intPinCfg write read => exact iff_of_true (keeps_intPinCfg write read regs) trivial

/-! ## The calls do that -/

/-- Fields that cover a whole byte leave nothing of what was in it. -/
theorem address_eq (c : PeriphConfig) (garbage : Byte) : c.address garbage = c.address 0 :=
  (((agreeOn_zero garbage 0).set _ _).set _ _).eq (by decide)

theorem ctrl_eq (c : PeriphConfig) (garbage : Byte) : c.ctrl garbage = c.ctrl 0 :=
  ((((((agreeOn_zero garbage 0).set _ _).set _ _).set _ _).set _ _).set _ _).eq (by decide)

theorem en0_eq (w : IntEnables) (garbage : Byte) : w.en0 garbage = w.en0 0 :=
  (((((((agreeOn_zero garbage 0).set _ _).set _ _).set _ _).set _ _).set _ _).set _ _)
    |>.eq (by decide)

theorem en1_eq (w : IntEnables) (garbage : Byte) : w.en1 garbage = w.en1 0 :=
  (((agreeOn_zero garbage 0).set _ _).set _ _).eq (by decide)

theorem en2_eq (w : IntEnables) (garbage : Byte) : w.en2 garbage = w.en2 0 :=
  (((((((agreeOn_zero garbage 0).set _ _).set _ _).set _ _).set _ _).set _ _).set _ _)
    |>.eq (by decide)

theorem en3_eq (w : IntEnables) (garbage : Byte) : w.en3 garbage = w.en3 0 :=
  (((((((agreeOn_zero garbage 0).set _ _).set _ _).set _ _).set _ _).set _ _).set _ _)
    |>.eq (by decide)

section
variable {regs regs' : RegFile} {tr : BusTrace RegFile} {α : Type} {a : α}

/-- Without failures the early return after a write is not taken. -/
theorem flat_guardWrite {reg b : Byte} (hport : isPort reg = false) {fail : Status → α}
    {q : Status → Io α} (hexec : Prog.Exec flatDevice (writeByte reg b >>= fun retval =>
      if retval ≠ Status.ok then pure (fail retval) else q retval) regs tr a regs') :
    ∃ t, Prog.Exec flatDevice (q Status.ok) (regs.set reg b) t a regs' := by
  obtain ⟨retval, regs₁, t₁, t₂, -, hwrite, hrest⟩ := exec_guard.mp hexec
  obtain ⟨rfl, rfl⟩ := flat_writeByte hport hwrite
  rw [if_pos rfl] at hrest
  exact ⟨t₂, hrest⟩

/-- What follows and writes nothing leaves the registers as they were. -/
theorem flat_thenRead {β : Type} {p : Io β} {q : β → Io α}
    (hexec : Prog.Exec flatDevice (p >>= q) regs tr a regs')
    (huses : ∀ b addr, (q b).Uses (Untouched addr)) :
    ∃ b t, Prog.Exec flatDevice p regs t b regs' := by
  obtain ⟨b, regs₁, t₁, t₂, -, hp, hq⟩ := (Prog.exec_bind _ _ _ _ _ _ _).mp hexec
  have hregs : regs' = regs₁ := funext fun addr => flat_of_untouched (huses b addr) hq
  exact ⟨b, t₁, hregs ▸ hp⟩

/-- Locals that are not initialised leave them alone too. -/
theorem flat_uninit {len : Nat} {q : (Fin len → Byte) → Io α}
    (hexec : Prog.Exec flatDevice (uninit len >>= q) regs tr a regs') :
    ∃ garbage t, Prog.Exec flatDevice (q garbage) regs t a regs' := by
  obtain ⟨garbage, regs₁, t₁, ⟨-, hregs₁⟩, -, hexec₁⟩ := hexec
  rw [show regs₁ = regs from hregs₁] at hexec₁
  exact ⟨garbage, t₁, hexec₁⟩

theorem flat_uninitByte {q : Byte → Io α}
    (hexec : Prog.Exec flatDevice (uninitByte >>= q) regs tr a regs') :
    ∃ garbage t, Prog.Exec flatDevice (q garbage) regs t a regs' := by
  obtain ⟨garbage, t, hexec₁⟩ := flat_uninit (q := fun garbage => q (garbage 0)) hexec
  exact ⟨garbage 0, t, hexec₁⟩

end

theorem isPort_periphRegs {peripheral : Byte} {periph : PeriphRegs}
    (h : periphRegs peripheral = some periph) :
    isPort periph.periphAddrReg = false ∧ isPort periph.periphRegReg = false ∧
      isPort periph.periphCtrlReg = false ∧ isPort periph.periphDoReg = false :=
  periphRegs_forall (P := fun periph => isPort periph.periphAddrReg = false ∧
    isPort periph.periphRegReg = false ∧ isPort periph.periphCtrlReg = false ∧
    isPort periph.periphDoReg = false) (by decide) (by decide) (by decide) (by decide) h

theorem flat_setBank {α : Type} {a : α} {bank : Byte} {fail : Status → α} {q : Status → Io α}
    {regs regs' : RegFile} {tr : BusTrace RegFile} (hexec : Prog.Exec flatDevice
      (setBank bank >>= fun retval => if retval ≠ Status.ok then pure (fail retval) else q retval)
      regs tr a regs') : Prog.Exec flatDevice (q Status.ok) regs tr a regs' := hexec

theorem flat_configurePeripheral {peripheral : Byte} {c : PeriphConfig} {regs regs' : RegFile}
    {tr : BusTrace RegFile} {retval : Status}
    (hexec : Prog.Exec flatDevice (i2cControllerConfigurePeripheral peripheral c) regs tr retval
      regs') : regs' = (ConfigCall.configurePeripheral peripheral c).after regs := by
  -- the two registers that are written in either case
  have hrest {periph : PeriphRegs} (hports : isPort periph.periphRegReg = false ∧
        isPort periph.periphCtrlReg = false) {regs₁ : RegFile} {t : BusTrace RegFile}
      (hrun : Prog.Exec flatDevice (writeByte periph.periphRegReg c.reg >>= fun retval =>
        if retval ≠ Status.ok then pure retval else uninitByte >>= fun ctrl =>
          writeByte periph.periphCtrlReg (c.ctrl ctrl)) regs₁ t retval regs') :
      regs' = (regs₁.set periph.periphRegReg c.reg).set periph.periphCtrlReg (c.ctrl 0) := by
    obtain ⟨t₁, hrun₁⟩ := flat_guardWrite hports.1 hrun
    obtain ⟨ctrl, t₂, hrun₂⟩ := flat_uninitByte hrun₁
    rw [(flat_writeByte hports.2 hrun₂).2, ctrl_eq]
  unfold i2cControllerConfigurePeripheral at hexec
  rw [ConfigCall.after]
  cases hsome : periphRegs peripheral with
  | none =>
    rw [hsome] at hexec
    exact hexec.2.2
  | some periph =>
    rw [hsome] at hexec
    obtain ⟨haddr, hreg, hctrl, hdo⟩ := isPort_periphRegs hsome
    obtain ⟨address, t₁, hexec₁⟩ := flat_uninitByte (flat_setBank hexec)
    obtain ⟨t₂, hexec₂⟩ := flat_guardWrite haddr hexec₁
    change regs' = periph.after c regs
    rw [PeriphRegs.after]
    rw [address_eq] at hexec₂
    cases hrw : c.rw with
    | true =>
      rw [hrw] at hexec₂
      exact hrest ⟨hreg, hctrl⟩ hexec₂
    | false =>
      rw [hrw] at hexec₂
      obtain ⟨t₃, hexec₃⟩ := flat_guardWrite hdo hexec₂
      exact hrest ⟨hreg, hctrl⟩ hexec₃

theorem flat_intEnableWrite {w : IntEnables} {en : Fin 4 → Byte} {regs regs' : RegFile}
    {tr : BusTrace RegFile} {retval : Status}
    (hexec : Prog.Exec flatDevice (intEnableWrite w en) regs tr retval regs') :
    regs' = (((regs.set agb0RegIntEnable (w.en0 0)).set agb0RegIntEnable1 (w.en1 0)).set
      agb0RegIntEnable2 (w.en2 0)).set agb0RegIntEnable3 (w.en3 0) := by
  obtain ⟨t₁, hexec₁⟩ := flat_guardWrite rfl hexec
  obtain ⟨t₂, hexec₂⟩ := flat_guardWrite rfl hexec₁
  obtain ⟨t₃, hexec₃⟩ := flat_guardWrite rfl hexec₂
  rw [(flat_writeByte rfl hexec₃).2, en0_eq, en1_eq, en2_eq, en3_eq]

/-- Nor is the one after a read. -/
theorem flat_guardRead {α : Type} {a : α} {reg dest : Byte} (hport : isPort reg = false)
    {fail : Read Byte → α} {q : Read Byte → Io α} {regs regs' : RegFile} {tr : BusTrace RegFile}
    (hexec : Prog.Exec flatDevice (readByte reg dest >>= fun r =>
      if r.retval ≠ Status.ok then pure (fail r) else q r) regs tr a regs') :
    ∃ t, Prog.Exec flatDevice (q ⟨Status.ok, regs.get reg⟩) regs t a regs' := by
  obtain ⟨r, regs₁, t₁, t₂, -, hread, hrest⟩ := (Prog.exec_bind _ _ _ _ _ _ _).mp hexec
  obtain ⟨rfl, rfl⟩ := flat_readByte hport hread
  rw [if_neg (not_not_intro rfl)] at hrest
  exact ⟨t₂, hrest⟩

/-- `int_enable` reads the setting of that name. -/
theorem flat_intEnable_read {dest : IntEnables} {regs regs' : RegFile} {tr : BusTrace RegFile}
    {r : Read (Option IntEnables)}
    (hexec : Prog.Exec flatDevice (intEnable none (some dest)) regs tr r regs') :
    r = ⟨Status.ok, some (Setting.read .interruptEnables regs)⟩ := by
  obtain ⟨en, t, hexec₁⟩ := flat_uninit hexec
  have hexec₂ : Prog.Exec flatDevice (intEnableRead dest en >>= fun r =>
      pure (⟨r.retval, some r.val⟩ : Read (Option IntEnables))) regs t r regs' := hexec₁
  obtain ⟨r₁, regs₂, t₁, t₂, -, hread, -, rfl, -⟩ := (Prog.exec_bind _ _ _ _ _ _ _).mp hexec₂
  obtain ⟨u₀, hread₀⟩ := flat_guardRead rfl hread
  obtain ⟨u₁, hread₁⟩ := flat_guardRead rfl hread₀
  obtain ⟨u₂, hread₂⟩ := flat_guardRead rfl hread₁
  obtain ⟨u₃, -, rfl, -⟩ := flat_guardRead rfl hread₂
  rfl

/-- `wom_threshold` and `int_pin_cfg` likewise. -/
theorem flat_womThreshold_read {dest : Byte} {regs regs' : RegFile} {tr : BusTrace RegFile}
    {r : Read (Option Byte)}
    (hexec : Prog.Exec flatDevice (womThreshold none (some dest)) regs tr r regs') :
    r = ⟨Status.ok, some (Setting.read .womThreshold regs)⟩ := by
  obtain ⟨thr, t, hexec₁⟩ := flat_uninitByte hexec
  have hexec₂ : Prog.Exec flatDevice (readByte agb2RegAccelWomThr thr >>= fun r =>
      pure (⟨r.retval, some (if r.retval = Status.ok then r.val else dest)⟩ : Read (Option Byte)))
      regs t r regs' := hexec₁
  obtain ⟨r₁, regs₁, t₁, t₂, -, hread, -, rfl, -⟩ := (Prog.exec_bind _ _ _ _ _ _ _).mp hexec₂
  obtain ⟨rfl, -⟩ := flat_readByte rfl hread
  rfl

theorem flat_intPinCfg_read {dest : Byte} {regs regs' : RegFile} {tr : BusTrace RegFile}
    {r : Read (Option Byte)}
    (hexec : Prog.Exec flatDevice (intPinCfg none (some dest)) regs tr r regs') :
    r = ⟨Status.ok, some (Setting.read .intPin regs)⟩ := by
  have hexec₁ : Prog.Exec flatDevice (readByte agb0RegIntPinConfig dest >>= fun r =>
      pure (⟨r.retval, some r.val⟩ : Read (Option Byte))) regs tr r regs' := hexec
  obtain ⟨r₁, regs₁, t₁, t₂, -, hread, -, rfl, -⟩ := (Prog.exec_bind _ _ _ _ _ _ _).mp hexec₁
  obtain ⟨rfl, -⟩ := flat_readByte rfl hread
  rfl

theorem uses_readByte (a : BitVec 7) (reg dest : Byte) : (readByte reg dest).Uses (Untouched a) :=
  ⟨trivial, fun _ => trivial⟩

theorem flat_intPinCfg {w : Byte} {read : Option Byte} {regs regs' : RegFile}
    {tr : BusTrace RegFile} {r : Read (Option Byte)}
    (hexec : Prog.Exec flatDevice (intPinCfg (some w) read) regs tr r regs') :
    regs' = regs.set agb0RegIntPinConfig w := by
  simp only [intPinCfg, setBank, pure_bind] at hexec
  obtain ⟨retval, t, hwrite⟩ := flat_thenRead hexec fun retval a => .ite trivial <| by
    cases read with
    | none => trivial
    | some dest => exact (uses_readByte a _ _).bind fun _ => trivial
  exact (flat_writeByte rfl hwrite).2

theorem flat_womThreshold {w : Byte} {read : Option Byte} {regs regs' : RegFile}
    {tr : BusTrace RegFile} {r : Read (Option Byte)}
    (hexec : Prog.Exec flatDevice (womThreshold (some w) read) regs tr r regs') :
    regs' = regs.set agb2RegAccelWomThr w := by
  obtain ⟨thr, t, hexec₁⟩ := flat_uninitByte hexec
  simp only [setBank, pure_bind] at hexec₁
  obtain ⟨retval, t₁, hwrite⟩ := flat_thenRead hexec₁ fun retval a => .ite trivial <| by
    cases read with
    | none => trivial
    | some dest => exact (uses_readByte a _ _).bind fun _ => trivial
  exact (flat_writeByte rfl hwrite).2

theorem flat_intEnable {w : IntEnables} {read : Option IntEnables} {regs regs' : RegFile}
    {tr : BusTrace RegFile} {r : Read (Option IntEnables)}
    (hexec : Prog.Exec flatDevice (intEnable (some w) read) regs tr r regs') :
    regs' = (ConfigCall.intEnable w read).after regs := by
  have hread (a : BitVec 7) (dest : IntEnables) (en : Fin 4 → Byte) :
      (intEnableRead dest en).Uses (Untouched a) :=
    uses_guardRead (uses_readByte a _ _) fun _ => uses_guardRead (uses_readByte a _ _) fun _ =>
      uses_guardRead (uses_readByte a _ _) fun _ => uses_guardRead (uses_readByte a _ _) fun _ =>
        trivial
  obtain ⟨en, t, hexec₁⟩ := flat_uninit hexec
  simp only [setBank, pure_bind] at hexec₁
  obtain ⟨retval, t₁, hwrite⟩ := flat_thenRead hexec₁ fun retval a => .ite trivial <| by
    cases read with
    | none => trivial
    | some dest => exact (hread a _ _).bind fun _ => trivial
  exact flat_intEnableWrite hwrite

theorem flat_setSampleMode {sensors : Sensors} {mode : BitVec 32} {regs regs' : RegFile}
    {tr : BusTrace RegFile} {retval : Status}
    (hexec : Prog.Exec flatDevice (setSampleMode sensors mode) regs tr retval regs') :
    regs' = (ConfigCall.setSampleMode sensors mode).after regs := by
  unfold setSampleMode at hexec
  rw [ConfigCall.after]
  split at hexec
  · exact (flat_updateReg rfl hexec).2
  · -- no sensor is named, and the byte would be written back as it is
    rename_i hnone
    rw [Bool.not_eq_true, Sensors.has_or, Sensors.has_or, Bool.or_eq_false_iff,
      Bool.or_eq_false_iff] at hnone
    obtain ⟨⟨hacc, hgyr⟩, hmst⟩ := hnone
    simp only [sampleModeAssign, hacc, hgyr, hmst, Bool.false_eq_true, if_false, RegFile.set_get]
    exact hexec.2.2

theorem flat_setSampleRate {sensors : Sensors} {smplrt : Smplrt} {regs regs' : RegFile}
    {tr : BusTrace RegFile} {retval : Status}
    (hexec : Prog.Exec flatDevice (setSampleRate sensors smplrt) regs tr retval regs') :
    regs' = (ConfigCall.setSampleRate sensors smplrt).after regs := by
  obtain ⟨retval₁, regs₁, t₁, retval₂, t₂, hacc, hgyr, -, -⟩ := exec_forAccGyr hexec
  -- `div1` is a byte, so the shift leaves nothing of the divider in it
  have hdiv1 : (smplrt.a <<< 8).setWidth 8 = (0 : Byte) := by
    apply BitVec.eq_of_getLsbD_eq
    intro i hi
    simp [hi]
  have hdiv2 : (smplrt.a &&& 0xFF).setWidth 8 = (smplrt.a.setWidth 8 : Byte) := by
    rw [BitVec.setWidth_and]
    exact BitVec.and_allOnes
  have hregs₁ := flat_block (f := fun regs => (regs.set agb2RegAccelSmplrtDiv1 0).set
    agb2RegAccelSmplrtDiv2 (smplrt.a.setWidth 8)) (fun regs₀ t₀ r₀ regs₀' hrun => by
      simp only [setBank, pure_bind, hdiv1, hdiv2] at hrun
      obtain ⟨r₁, regs₂, u₁, u₂, -, hwrite₁, hrest⟩ := (Prog.exec_bind _ _ _ _ _ _ _).mp hrun
      obtain ⟨r₂, regs₃, u₃, u₄, -, hwrite₂, -, -, rfl⟩ := (Prog.exec_bind _ _ _ _ _ _ _).mp hrest
      rw [(flat_writeByte rfl hwrite₂).2, (flat_writeByte rfl hwrite₁).2]) hacc
  have hregs' := flat_block (f := fun regs => regs.set agb2RegGyroSmplrtDiv smplrt.g)
    (fun regs₀ t₀ r₀ regs₀' hrun => by
      simp only [setBank, pure_bind] at hrun
      obtain ⟨r₁, regs₂, u₁, u₂, -, hwrite, -, -, rfl⟩ := (Prog.exec_bind _ _ _ _ _ _ _).mp hrun
      exact (flat_writeByte rfl hwrite).2) hgyr
  rw [hregs', hregs₁]
  rfl

/-- Every call has the effect on the registers that `after` says. -/
theorem flat_configCall (call : ConfigCall) {regs regs' : RegFile} {tr : BusTrace RegFile}
    {x : PUnit} (hexec : Prog.Exec flatDevice call.run regs tr x regs') :
    regs' = call.after regs := by
  have hcall {α : Type} {p : Io α}
      (hrun : Prog.Exec flatDevice (p >>= fun _ => pure PUnit.unit) regs tr x regs') :
      ∃ a t, Prog.Exec flatDevice p regs t a regs' := flat_thenRead hrun fun _ _ => trivial
  cases call with
  | setSampleRate sensors smplrt =>
    obtain ⟨retval, t, hrun⟩ := hcall hexec
    exact flat_setSampleRate hrun
  | womThreshold write read =>
    obtain ⟨retval, t, hrun⟩ := hcall hexec
    exact flat_womThreshold hrun
  | configurePeripheral peripheral c =>
    obtain ⟨retval, t, hrun⟩ := hcall hexec
    exact flat_configurePeripheral hrun
  | intEnable write read =>
    obtain ⟨retval, t, hrun⟩ := hcall hexec
    exact flat_intEnable hrun
  | setSampleMode sensors mode =>
    obtain ⟨retval, t, hrun⟩ := hcall hexec
    exact flat_setSampleMode hrun
  | enableFifo enable =>
    obtain ⟨retval, t, hrun⟩ := hcall hexec
    exact (flat_updateReg rfl hrun).2
  | enableDmp enable =>
    obtain ⟨retval, t, hrun⟩ := hcall hexec
    exact (flat_updateReg rfl hrun).2
  | intPinCfg write read =>
    obtain ⟨retval, t, hrun⟩ := hcall hexec
    exact flat_intPinCfg hrun

/-- A call leaves the settings it does not name alone exactly when what it writes over registers of
another bank is there already. -/
theorem keeps_others_iff {call : ConfigCall} {regs regs' : RegFile} {tr : BusTrace RegFile}
    {x : PUnit} (hexec : Prog.Exec flatDevice call.run regs tr x regs') :
    (∀ setting, call.names setting = false → setting.read regs' = setting.read regs) ↔
      call.KeepsApart regs := by
  rw [flat_configCall call hexec]
  exact keepsOthers_after_iff call regs

/-- An even divider leaves the raw data interrupt off. -/
def evenSampleRate : ConfigCall := .setSampleRate 3 ⟨18, 18⟩

def evenSampleRateRegs : RegFile := (Prog.run registers evenSampleRate.run fun _ => 0).2

theorem keeps_others_iff_evenSampleRate :
    Setting.interruptEnables.read evenSampleRateRegs =
        Setting.interruptEnables.read (fun _ => 0) ∧
      Setting.womThreshold.read evenSampleRateRegs = 0 ∧
      Setting.fifoEnable.read evenSampleRateRegs = false := by
  have hapart : evenSampleRate.KeepsApart fun _ => 0 := by
    unfold evenSampleRate ConfigCall.KeepsApart
    decide
  have hkept := (keeps_others_iff (exec_registers evenSampleRate.run fun _ => 0)).mpr hapart
  exact ⟨hkept .interruptEnables rfl, hkept .womThreshold rfl, hkept .fifoEnable rfl⟩

/-- The sample rate that the driver sets up for the DMP. -/
def dmpSampleRate : ConfigCall := .setSampleRate 3 ⟨19, 19⟩

/-- It switches the raw data interrupt on. -/
theorem sample_rate_enables_interrupt :
    ¬ ∀ (call : ConfigCall) (regs regs' : RegFile) (tr : BusTrace RegFile) (x : PUnit),
      Prog.Exec flatDevice call.run regs tr x regs' →
        ∀ setting, call.names setting = false → setting.read regs' = setting.read regs := by
  intro hall
  have hsame := hall dmpSampleRate _ _ _ _ (exec_registers _ fun _ => 0) .interruptEnables rfl
  exact absurd (congrArg IntEnables.rawData0RdyEn hsame) (by decide)

end SimuSound.Imu
