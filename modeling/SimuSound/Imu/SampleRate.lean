import SimuSound.Imu.RegisterFile

/-!
# SampleRate — the sample-rate dividers in the registers

The divider of the accelerometer has twelve bits and two registers.  `set_sample_rate` shifts it the
wrong way for the upper one, which is always written as 0.
-/

namespace SimuSound.Imu

open Reasoning

/-- `ACCEL_SMPLRT_DIV_1[3:0]:ACCEL_SMPLRT_DIV_2` -/
def accelDivider (regs : RegFile) : BitVec 12 :=
  (AccelSmplrtDiv1.accelSmplrtDiv118.get (regs.get agb2RegAccelSmplrtDiv1)).setWidth 4 ++
    regs.get agb2RegAccelSmplrtDiv2

def gyroDivider (regs : RegFile) : Byte := regs.get agb2RegGyroSmplrtDiv

/-- The dividers of the sensors that are named are in the registers, and the others are as they
were. -/
structure DividersIntact (sensors : Sensors) (smplrt : Smplrt) (regs regs' : RegFile) : Prop where
  accel : accelDivider regs' =
    if sensors.has internalAcc then smplrt.a.setWidth 12 else accelDivider regs
  gyro : gyroDivider regs' = if sensors.has internalGyr then smplrt.g else gyroDivider regs

/-- What the accelerometer's block leaves in the registers. -/
def withAccelDivider (a : BitVec 16) (regs : RegFile) : RegFile :=
  (regs.set agb2RegAccelSmplrtDiv1 ((a <<< 8).setWidth 8)).set agb2RegAccelSmplrtDiv2
    ((a &&& 0xFF).setWidth 8)

section
variable {env : Env RegFile BusEvent BusEvent.Resp} {sensors : Sensors} {smplrt : Smplrt}
  {regs regs' : RegFile} {tr : BusTrace RegFile}

theorem Stores.writeByte (h : Stores env fun _ => True) {reg b : Byte} {retval : Status}
    (hport : isPort reg = false) (hok : retval = Status.ok)
    (hexec : Prog.Exec env (writeByte reg b) regs tr retval regs') : regs' = regs.set reg b := by
  obtain ⟨hwrite, -⟩ := (Prog.exec_perform _ _ _ _ _ _).mp hexec
  have haccess : regs' = if isPort reg then regs else regs.set reg b :=
    h _ _ _ _ hwrite hok trivial
  rw [hport] at haccess
  exact haccess

/-- When it succeeds, every named sensor's registers have been written. -/
theorem Stores.setSampleRate (h : Stores env fun _ => True)
    (hexec : Prog.Exec env (setSampleRate sensors smplrt) regs tr Status.ok regs') :
    let stored := if sensors.has internalAcc then withAccelDivider smplrt.a regs else regs
    regs' = if sensors.has internalGyr then stored.set agb2RegGyroSmplrtDiv smplrt.g
      else stored := by
  obtain ⟨regs₁, t₁, t₂, hacc, hgyr⟩ := exec_forAccGyr_ok hexec
  have hregs₁ : regs₁ = if sensors.has internalAcc then withAccelDivider smplrt.a regs
      else regs := by
    unfold Sensors.block at hacc
    by_cases hsel : sensors.has internalAcc = true
    · rw [if_pos hsel] at hacc ⊢
      -- the bank, then the upper register, then the lower one; the results are or-ed
      obtain ⟨bank, s₁, u₁, v₁, -, ⟨-, rfl, rfl⟩, hacc₁⟩ := (Prog.exec_bind _ _ _ _ _ _ _).mp hacc
      obtain ⟨r₁, s₂, u₂, v₂, -, hdiv1, hacc₂⟩ := (Prog.exec_bind _ _ _ _ _ _ _).mp hacc₁
      obtain ⟨r₂, s₃, u₃, v₃, -, hdiv2, -, hret, rfl⟩ := (Prog.exec_bind _ _ _ _ _ _ _).mp hacc₂
      obtain ⟨hret₁, hret₂⟩ := (Status.or_eq_ok _ _).mp hret.symm
      rw [h.writeByte rfl hret₂ hdiv2, h.writeByte rfl ((Status.or_eq_ok _ _).mp hret₁).2 hdiv1]
      rfl
    · rw [if_neg hsel] at hacc ⊢
      exact hacc.2.2
  show regs' = ite _ (RegFile.set (ite _ _ _) _ _) (ite _ _ _)
  rw [← hregs₁]
  unfold Sensors.block at hgyr
  by_cases hsel : sensors.has internalGyr = true
  · rw [if_pos hsel] at hgyr ⊢
    obtain ⟨bank, s₁, u₁, v₁, -, ⟨-, rfl, rfl⟩, hgyr₁⟩ := (Prog.exec_bind _ _ _ _ _ _ _).mp hgyr
    obtain ⟨r₁, s₂, u₂, v₂, -, hdiv, -, hret, rfl⟩ := (Prog.exec_bind _ _ _ _ _ _ _).mp hgyr₁
    exact h.writeByte rfl ((Status.or_eq_ok _ _).mp hret.symm).2 hdiv
  · rw [if_neg hsel] at hgyr ⊢
    exact hgyr.2.2

theorem shiftLeft_setWidth (a : BitVec 16) : ((a <<< 8).setWidth 8 : Byte) = 0 := by
  apply BitVec.eq_of_toNat_eq
  rw [BitVec.toNat_setWidth, BitVec.toNat_shiftLeft, Nat.shiftLeft_eq]
  show a.toNat * 2 ^ 8 % 2 ^ 16 % 2 ^ 8 = 0
  omega

theorem accelDivider_withAccelDivider (a : BitVec 16) :
    (accelDivider (withAccelDivider a regs)).toNat = a.toNat % 256 := by
  have hne : addr agb2RegAccelSmplrtDiv1 ≠ addr agb2RegAccelSmplrtDiv2 := by decide
  unfold accelDivider withAccelDivider
  rw [RegFile.get_set, RegFile.get_set_of_ne _ hne, RegFile.get_set, shiftLeft_setWidth]
  show ((0#4 : BitVec 4) ++ ((a &&& 0xFF).setWidth 8 : Byte)).toNat = _
  -- the upper four bits are 0, the lower eight those of the argument
  rw [BitVec.toNat_append, BitVec.toNat_setWidth, BitVec.toNat_and,
    show (0xFF : BitVec 16).toNat = 2 ^ 8 - 1 from rfl, Nat.and_two_pow_sub_one_eq_mod]
  show (0 <<< 8 ||| a.toNat % 2 ^ 8 % 2 ^ 8) = a.toNat % 256
  rw [Nat.mod_mod, Nat.zero_shiftLeft, Nat.zero_or]

theorem gyroDivider_withAccelDivider (a : BitVec 16) :
    gyroDivider (withAccelDivider a regs) = gyroDivider regs := by
  have h₁ : addr agb2RegGyroSmplrtDiv ≠ addr agb2RegAccelSmplrtDiv1 := by decide
  have h₂ : addr agb2RegGyroSmplrtDiv ≠ addr agb2RegAccelSmplrtDiv2 := by decide
  unfold gyroDivider withAccelDivider
  rw [RegFile.get_set_of_ne _ h₂, RegFile.get_set_of_ne _ h₁]

theorem accelDivider_set_gyro (b : Byte) :
    accelDivider (regs.set agb2RegGyroSmplrtDiv b) = accelDivider regs := by
  have h₁ : addr agb2RegAccelSmplrtDiv1 ≠ addr agb2RegGyroSmplrtDiv := by decide
  have h₂ : addr agb2RegAccelSmplrtDiv2 ≠ addr agb2RegGyroSmplrtDiv := by decide
  unfold accelDivider
  rw [RegFile.get_set_of_ne _ h₁, RegFile.get_set_of_ne _ h₂]

/-- Only the low byte of the accelerometer's divider reaches the device. -/
theorem accelDivider_eq_iff {a : BitVec 16} (ha : a.toNat < 4096) :
    accelDivider (withAccelDivider a regs) = a.setWidth 12 ↔ a.toNat < 256 := by
  rw [← BitVec.toNat_inj, accelDivider_withAccelDivider, BitVec.toNat_setWidth]
  omega

end

/-- Both registers of the accelerometer are 0 for the divider 256. -/
theorem accel_divider_lost :
    ¬ ∀ (env : Env RegFile BusEvent BusEvent.Resp) (sensors : Sensors) (smplrt : Smplrt)
      (regs regs' : RegFile) (tr : BusTrace RegFile) (retval : Status),
      (Stores env fun _ => True) → smplrt.a.toNat < 4096 →
      Prog.Exec env (setSampleRate sensors smplrt) regs tr retval regs' → retval = Status.ok →
      DividersIntact sensors smplrt regs regs' := by
  intro h
  let regs : RegFile := fun _ => 0
  have hexec := exec_registers (setSampleRate internalAcc ⟨256, 0⟩) regs
  have haccel := (h flatDevice internalAcc ⟨256, 0⟩ regs _ _ _ stores_flatDevice (by decide)
    hexec (by decide)).accel
  exact absurd haccel (by decide)

/-- On any device that stores what is written to it successfully, the dividers arrive intact exactly
if that of the accelerometer, if it is set, fits into one byte. -/
theorem dividers_intact_iff {env : Env RegFile BusEvent BusEvent.Resp} {sensors : Sensors}
    {smplrt : Smplrt} {regs regs' : RegFile} {tr : BusTrace RegFile} {retval : Status}
    (hdev : Stores env fun _ => True) (ha : smplrt.a.toNat < 4096)
    (hexec : Prog.Exec env (setSampleRate sensors smplrt) regs tr retval regs')
    (hok : retval = Status.ok) :
    DividersIntact sensors smplrt regs regs' ↔
      (sensors.has internalAcc = true → smplrt.a.toNat < 256) := by
  subst hok
  have hregs' := hdev.setSampleRate hexec
  by_cases hacc : sensors.has internalAcc = true
  · rw [if_pos hacc] at hregs'
    have hdivider : accelDivider (withAccelDivider smplrt.a regs) = smplrt.a.setWidth 12 ↔
        smplrt.a.toNat < 256 := accelDivider_eq_iff ha
    rw [← hdivider]
    -- the register of the gyro is apart from the two of the accelerometer
    have hgyro : gyroDivider regs' = if sensors.has internalGyr then smplrt.g
        else gyroDivider regs := by
      rw [hregs']
      split
      · exact RegFile.get_set _ _ _
      · exact gyroDivider_withAccelDivider _
    have haccel : accelDivider regs' = accelDivider (withAccelDivider smplrt.a regs) := by
      rw [hregs']
      split
      · exact accelDivider_set_gyro _
      · rfl
    constructor
    · intro hintact _
      have h := hintact.accel
      rwa [if_pos hacc, haccel] at h
    · intro h
      exact ⟨by rw [if_pos hacc, haccel, h hacc], hgyro⟩
  · rw [if_neg hacc] at hregs'
    refine iff_of_true ⟨?_, ?_⟩ fun h => absurd h hacc
    · rw [if_neg hacc, hregs']
      split
      · exact accelDivider_set_gyro _
      · rfl
    · rw [hregs']
      split
      · exact RegFile.get_set _ _ _
      · rfl

/-- The dividers of the DMP set-up. -/
theorem dividers_intact_iff_dmp :
    let regs : RegFile := fun _ => 0xFF
    DividersIntact (internalAcc ||| internalGyr) ⟨19, 19⟩ regs
      (Prog.run registers (setSampleRate (internalAcc ||| internalGyr) ⟨19, 19⟩) regs).2 := by
  intro regs
  apply (dividers_intact_iff stores_flatDevice (by decide) (exec_registers
    (setSampleRate (internalAcc ||| internalGyr) ⟨19, 19⟩) regs) (by decide)).mpr
  intro _
  decide

end SimuSound.Imu
