import SimuSound.Imu.Bus

/-!
# Sensors — sample mode, full scale, filters, sample rate and the measurement itself
-/

namespace SimuSound.Imu

open Reasoning

/-- `ICM_20948_InternalSensorID_bm` -/
abbrev Sensors := BitVec 32
def internalAcc : Sensors := 1
def internalGyr : Sensors := 2
def internalMst : Sensors := 16

/-- `sensors & mask` -/
def Sensors.has (sensors mask : Sensors) : Bool := sensors &&& mask ≠ 0

/-- `ICM_20948_LP_CONFIG_CYCLE_e` -/
def sampleModeContinuous : BitVec 32 := 0
def sampleModeCycled : BitVec 32 := 1

/-- `ICM_20948_fss_t` -/
structure Fss where
  a : BitVec 2
  g : BitVec 2
  deriving DecidableEq

def gpm4 : BitVec 2 := 1
def gpm16 : BitVec 2 := 3
def dps2000 : BitVec 2 := 3

/-- `ICM_20948_dlpcfg_t` -/
structure Dlpcfg where
  a : Byte
  g : Byte

/-- `ICM_20948_smplrt_t` -/
structure Smplrt where
  a : BitVec 16
  g : Byte

def sampleModeAssign (sensors : Sensors) (mode : BitVec 32) (reg : Byte) : Byte :=
  let reg := if sensors.has internalAcc then LpConfig.accelCycle.set (mode.setWidth 8) reg else reg
  let reg := if sensors.has internalGyr then LpConfig.gyroCycle.set (mode.setWidth 8) reg else reg
  if sensors.has internalMst then LpConfig.i2cMstCycle.set (mode.setWidth 8) reg else reg

def setSampleMode (sensors : Sensors) (mode : BitVec 32) : Io Status :=
  if sensors.has (internalAcc ||| internalGyr ||| internalMst) then
    updateReg 0 agb0RegLpConfig (sampleModeAssign sensors mode)
  else
    pure Status.sensorNotSupported

/-- One block for the accelerometer and one for the gyro, each for the sensors that are named, with
all results combined by `|=`. -/
def forAccGyr (sensors : Sensors) (acc gyr : Io Status) : Io Status :=
  if sensors.has (internalAcc ||| internalGyr) then do
    let retval ← if sensors.has internalAcc then acc else pure Status.ok
    let retval' ← if sensors.has internalGyr then gyr else pure Status.ok
    pure (retval ||| retval')
  else
    pure Status.sensorNotSupported

/-- The block of one sensor. -/
def Sensors.block (sensors mask : Sensors) (p : Io Status) : Io Status :=
  if sensors.has mask then p else pure Status.ok

theorem Sensors.has_or (sensors a b : Sensors) :
    sensors.has (a ||| b) = (sensors.has a || sensors.has b) := by
  simp only [Sensors.has, and_or_ne_zero, Bool.decide_or]

/-- Without a sensor that is named both blocks are empty. -/
theorem forAccGyr_eq (sensors : Sensors) (acc gyr : Io Status) :
    forAccGyr sensors acc gyr = sensors.block internalAcc acc >>= fun retval =>
      sensors.block internalGyr gyr >>= fun retval' => pure <|
        if sensors.has (internalAcc ||| internalGyr) then retval ||| retval'
        else Status.sensorNotSupported := by
  unfold forAccGyr Sensors.block
  rw [Sensors.has_or]
  by_cases ha : sensors.has internalAcc = true
  · by_cases hg : sensors.has internalGyr = true
    · simp only [ha, hg, Bool.or_self, if_true]
    · simp only [ha, hg, Bool.or_false, if_true, pure_bind]
      rfl
  · by_cases hg : sensors.has internalGyr = true
    · simp only [ha, hg, Bool.or_true, if_true]
      rfl
    · simp only [ha, hg, Bool.or_self]
      rfl

/-- A block makes the accesses of its code, if any. -/
theorem uses_block {P : BusEvent → Prop} {sensors mask : Sensors} {p : Io Status}
    (hp : p.Uses P) : (sensors.block mask p).Uses P := by
  unfold Sensors.block
  split
  · exact hp
  · trivial

theorem uses_forAccGyr {P : BusEvent → Prop} (sensors : Sensors) {acc gyr : Io Status}
    (hacc : acc.Uses P) (hgyr : gyr.Uses P) : (forAccGyr sensors acc gyr).Uses P := by
  rw [forAccGyr_eq]
  exact (uses_block hacc).bind fun _ => (uses_block hgyr).bind fun _ => trivial

theorem succeeds_block {sensors mask : Sensors} {p : Io Status} (hp : SucceedsOk p) :
    SucceedsOk (sensors.block mask p) := by
  unfold Sensors.block
  split
  · exact hp
  · rfl

theorem succeeds_forAccGyr {sensors : Sensors} {acc gyr : Io Status}
    (hsensors : sensors.has (internalAcc ||| internalGyr)) (hacc : SucceedsOk acc)
    (hgyr : SucceedsOk gyr) : SucceedsOk (forAccGyr sensors acc gyr) := by
  rw [forAccGyr_eq]
  refine (succeeds_block hacc).bind fun retval hok => ?_
  refine (succeeds_block hgyr).bind fun retval' hok' => ?_
  rw [if_pos hsensors]
  exact (Status.or_eq_ok _ _).mpr ⟨hok, hok'⟩

theorem exec_forAccGyr {σ : Type} {env : Env σ BusEvent BusEvent.Resp} {sensors : Sensors}
    {acc gyr : Io Status} {s s' : σ} {tr : BusTrace σ} {retval : Status}
    (hexec : Prog.Exec env (forAccGyr sensors acc gyr) s tr retval s') :
    ∃ retval₁ s₁ t₁ retval₂ t₂, Prog.Exec env (sensors.block internalAcc acc) s t₁ retval₁ s₁ ∧
      Prog.Exec env (sensors.block internalGyr gyr) s₁ t₂ retval₂ s' ∧ tr = t₁ ++ t₂ ∧
      retval = if sensors.has (internalAcc ||| internalGyr) then retval₁ ||| retval₂
        else Status.sensorNotSupported := by
  rw [forAccGyr_eq] at hexec
  obtain ⟨retval₁, s₁, t₁, u₁, rfl, hacc, hexec₁⟩ := (Prog.exec_bind _ _ _ _ _ _ _).mp hexec
  obtain ⟨retval₂, s₂, t₂, u₂, rfl, hgyr, rfl, hret, rfl⟩ :=
    (Prog.exec_bind _ _ _ _ _ _ _).mp hexec₁
  exact ⟨retval₁, s₁, t₁, retval₂, t₂, hacc, hgyr, by rw [List.append_nil], hret⟩

/-- When it succeeds, so did both blocks. -/
theorem exec_forAccGyr_ok {σ : Type} {env : Env σ BusEvent BusEvent.Resp} {sensors : Sensors}
    {acc gyr : Io Status} {s s' : σ} {tr : BusTrace σ}
    (hexec : Prog.Exec env (forAccGyr sensors acc gyr) s tr Status.ok s') :
    ∃ s₁ t₁ t₂, Prog.Exec env (sensors.block internalAcc acc) s t₁ Status.ok s₁ ∧
      Prog.Exec env (sensors.block internalGyr gyr) s₁ t₂ Status.ok s' := by
  obtain ⟨retval₁, s₁, t₁, retval₂, t₂, hacc, hgyr, -, hret⟩ := exec_forAccGyr hexec
  by_cases hsensors : sensors.has (internalAcc ||| internalGyr) = true
  · rw [if_pos hsensors] at hret
    obtain ⟨rfl, rfl⟩ := (Status.or_eq_ok _ _).mp hret.symm
    exact ⟨s₁, t₁, t₂, hacc, hgyr⟩
  · rw [if_neg hsensors] at hret
    exact absurd hret (by decide)

def setFullScale (sensors : Sensors) (fss : Fss) : Io Status :=
  forAccGyr sensors
    (updateRegOr 2 agb2RegAccelConfig (AccelConfig.accelFsSel.set (fss.a.setWidth 8)))
    (updateRegOr 2 agb2RegGyroConfig1 (GyroConfig1.gyroFsSel.set (fss.g.setWidth 8)))

/-- The assignments are disabled for the ICM-20689, the registers are still written back. -/
def setDlpfCfg (sensors : Sensors) (_cfg : Dlpcfg) : Io Status :=
  forAccGyr sensors (updateRegOr 2 agb2RegAccelConfig id) (updateRegOr 2 agb2RegGyroConfig1 id)

/-- Only the gyro's assignment is enabled for the ICM-20689. -/
def enableDlpf (sensors : Sensors) (enable : Bool) : Io Status :=
  forAccGyr sensors (updateRegOr 2 agb2RegAccelConfig id)
    (updateRegOr 2 agb2RegGyroConfig1 (GyroConfig1.gyroFchoice.set (bit enable)))

def setSampleRate (sensors : Sensors) (smplrt : Smplrt) : Io Status :=
  forAccGyr sensors
    (do
      let retval ← setBank 2
      let div1 : Byte := (smplrt.a <<< 8).setWidth 8
      let div2 : Byte := (smplrt.a &&& 0xFF).setWidth 8
      let retval₁ ← writeByte agb2RegAccelSmplrtDiv1 div1
      let retval₂ ← writeByte agb2RegAccelSmplrtDiv2 div2
      pure (retval ||| retval₁ ||| retval₂))
    (do
      let retval ← setBank 2
      let retval₁ ← writeByte agb2RegGyroSmplrtDiv smplrt.g
      pure (retval ||| retval₁))

structure Axes where
  x : BitVec 16
  y : BitVec 16
  z : BitVec 16
  deriving DecidableEq

/-- The fields of `ICM_20948_AGMT_t` that `get_agmt` assigns; the ICM-20689 has no magnetometer. -/
structure Agmt where
  acc : Axes
  gyr : Axes
  tmp : BitVec 16
  fss : Fss
  deriving DecidableEq

def getAgmt (pagmt : Option Agmt) : Io (Read (Option Agmt)) := do
  match pagmt with
  | none => pure ⟨Status.paramErr, none⟩
  | some _ =>
    let garbage ← uninit 14
    let retval₁ ← setBank 0
    let raw ← executeR agb0RegAccelXoutH garbage
    let buff := raw.val
    let retval₂ ← setBank 2
    let acfgGarbage ← uninitByte
    let acfg ← readByte agb2RegAccelConfig acfgGarbage
    let retval₃ ← setBank 2
    let gcfg1Garbage ← uninitByte
    let gcfg1 ← readByte agb2RegGyroConfig1 gcfg1Garbage
    let acfg2Garbage ← uninitByte
    let acfg2 ← readByte agb2RegAccelConfig2 acfg2Garbage
    pure ⟨retval₁ ||| raw.retval ||| retval₂ ||| acfg.retval ||| retval₃ ||| gcfg1.retval |||
        acfg2.retval,
      some {
        acc := ⟨word16 (buff 0) (buff 1), word16 (buff 2) (buff 3), word16 (buff 4) (buff 5)⟩
        -- on the ICM-20689 the temperature comes before the gyro
        tmp := word16 (buff 6) (buff 7)
        gyr := ⟨word16 (buff 8) (buff 9), word16 (buff 10) (buff 11), word16 (buff 12) (buff 13)⟩
        fss := ⟨(AccelConfig.accelFsSel.get acfg.val).setWidth 2,
          (GyroConfig1.gyroFsSel.get gcfg1.val).setWidth 2⟩ }⟩

end SimuSound.Imu
