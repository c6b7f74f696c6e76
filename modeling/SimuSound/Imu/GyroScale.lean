import Mathlib.Algebra.Order.Floor.Semifield
import Mathlib.Data.Nat.Cast.Order.Field
import Mathlib.Data.Rat.Floor
import Mathlib.Tactic.GCongr
import Mathlib.Tactic.Positivity
import SimuSound.Imu.DmpSensors

/-!
# GyroScale — the number that scales the gyro

`inv_icm20948_set_gyro_sf` computes it from the correction of the clock, with two divisions in
64-bit arithmetic.
-/

namespace SimuSound.Imu

/-- The correction that is read from the register: a sign and seven bits. -/
def clockCorrection (pll : Byte) : ℤ :=
  if pll.getLsbD 7 then -((pll &&& 0x7F).toNat : ℤ) else pll.toNat

/-- `gyro_level` is 4, and a correction is counted in units of a 1270th. -/
def gyroScale (pll div : Byte) : ℚ :=
  264446880937391 * 2 ^ 4 * (1 + div.toNat) / ((1270 + clockCorrection pll) * 100000)

section
variable {pll pll' div div' : Byte}

theorem toNat_and_low (pll : Byte) : (pll &&& 0x7F).toNat = pll.toNat % 128 := by
  rw [BitVec.toNat_and]
  exact Nat.and_two_pow_sub_one_eq_mod _ 7

theorem getLsbD_seven_iff (pll : Byte) : pll.getLsbD 7 = true ↔ 128 ≤ pll.toNat := by
  have hmsb : pll.msb = pll.getLsbD 7 := BitVec.msb_eq_getLsbD_last pll
  rw [← hmsb, BitVec.msb_eq_decide]
  simp

theorem clockCorrection_bounds (pll : Byte) :
    -127 ≤ clockCorrection pll ∧ clockCorrection pll ≤ 127 := by
  have hlt := pll.isLt
  unfold clockCorrection
  split
  · rw [toNat_and_low]
    omega
  · have hsign := mt (getLsbD_seven_iff pll).mpr ‹_›
    omega

/-- No step of the computation leaves 64 bits. -/
theorem toNat_gyroSfResult (pll div : Byte) : (gyroSfResult pll div).toNat =
    264446880937391 * 2 ^ 4 * (1 + div.toNat) / ((1270 + clockCorrection pll).toNat * 100000) := by
  have hdiv := div.isLt
  have hpll := pll.isLt
  have hconst : (1270 : BitVec 64).toNat = 1270 := rfl
  have hdivisor : (if pll.getLsbD 7 then 1270 - (pll &&& 0x7F).setWidth 64
      else 1270 + pll.setWidth 64 : BitVec 64).toNat = (1270 + clockCorrection pll).toNat := by
    have hsign := getLsbD_seven_iff pll
    unfold clockCorrection
    split
    · rw [BitVec.toNat_sub, BitVec.toNat_setWidth, toNat_and_low, hconst]
      omega
    · rw [BitVec.toNat_add, BitVec.toNat_setWidth, hconst]
      omega
  have hproduct : (magicConstant * (1#64 <<< 4) * (1 + div.setWidth 64)).toNat =
      264446880937391 * 2 ^ 4 * (1 + div.toNat) := by
    rw [BitVec.toNat_mul, BitVec.toNat_mul, BitVec.toNat_add, BitVec.toNat_setWidth]
    show 264446880937391 * 16 % 2 ^ 64 * ((1 + div.toNat % 2 ^ 64) % 2 ^ 64) % 2 ^ 64 = _
    omega
  unfold gyroSfResult
  rw [BitVec.toNat_udiv, BitVec.toNat_udiv, hproduct, hdivisor, Nat.div_div_eq_div_mul]
  rfl

theorem floor_gyroScale (pll div : Byte) : ⌊gyroScale pll div⌋₊ =
    264446880937391 * 2 ^ 4 * (1 + div.toNat) / ((1270 + clockCorrection pll).toNat * 100000) := by
  have hbounds := clockCorrection_bounds pll
  have hcast : ((1270 + clockCorrection pll : ℤ) : ℚ) = ((1270 + clockCorrection pll).toNat : ℚ) := by
    rw [← Int.cast_natCast, Int.toNat_of_nonneg (by omega)]
  have hscale : gyroScale pll div = ((264446880937391 * 2 ^ 4 * (1 + div.toNat) : ℕ) : ℚ) /
      (((1270 + clockCorrection pll).toNat * 100000 : ℕ) : ℚ) := by
    rw [Nat.cast_mul (1270 + clockCorrection pll).toNat, ← hcast]
    unfold gyroScale
    norm_num
  rw [hscale, Nat.floor_div_eq_div]

theorem divisor_pos (pll : Byte) : (0 : ℚ) < 1270 + clockCorrection pll := by
  have hbounds := (clockCorrection_bounds pll).1
  have hcast : ((-127 : ℤ) : ℚ) ≤ clockCorrection pll := Int.cast_le.mpr hbounds
  push_cast at hcast
  linarith

theorem gyroScale_le_of_div (h : div ≤ div') : gyroScale pll div ≤ gyroScale pll div' := by
  have hle : (div.toNat : ℚ) ≤ div'.toNat := Nat.cast_le.mpr h
  have hpos := divisor_pos pll
  unfold gyroScale
  gcongr

theorem gyroScale_le_of_correction (h : clockCorrection pll ≤ clockCorrection pll') :
    gyroScale pll' div ≤ gyroScale pll div := by
  have hle : (clockCorrection pll : ℚ) ≤ clockCorrection pll' := Int.cast_le.mpr h
  have hpos := divisor_pos pll
  unfold gyroScale
  gcongr

theorem toNat_gyroSfOf (pll div : Byte) :
    (gyroSfOf pll div).toNat = min ⌊gyroScale pll div⌋₊ 0x7FFFFFFF := by
  rw [floor_gyroScale, ← toNat_gyroSfResult]
  have hmax : (0x7FFFFFFF : BitVec 64).toNat = 0x7FFFFFFF := rfl
  unfold gyroSfOf
  simp only [gt_iff_lt, BitVec.lt_def, hmax]
  split
  · rw [Nat.min_eq_right (by omega)]
    rfl
  · rw [BitVec.toNat_setWidth, Nat.min_eq_left (by omega)]
    omega

end

end SimuSound.Imu
