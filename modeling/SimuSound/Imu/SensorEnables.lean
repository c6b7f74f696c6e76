import SimuSound.Imu.MemoryRange
import SimuSound.Imu.SensorSets

/-!
# SensorEnables — the DMP's control registers after sensors have been switched

On a bus without failures every call writes all four control words anew.  What they ask for is
collected from the set of enabled sensors, but the masks of the sensors that need the accelerometer,
the gyro and the compass are compared with the loop's bit alone, so that every call asks for all
three to be ready and calibrated.
-/

namespace SimuSound.Imu

open Reasoning

/-! ## Control words -/

/-- What the Android sensors are computed from. -/
inductive BaseSensor
  | accel | gyro | compass

namespace BaseSensor

/-- The sensors of `INV_NEEDS_*_MASK` and `INV_NEEDS_*_MASK1`. -/
def dependents : BaseSensor → Finset ℕ
  | accel => sensorsIn invNeedsAccelMask invNeedsAccelMask1
  | gyro => sensorsIn invNeedsGyroMask invNeedsGyroMask1
  | compass => sensorsIn invNeedsCompassMask invNeedsCompassMask1

def dataReady : BaseSensor → BitVec 16
  | accel => dataReadyAccel
  | gyro => dataReadyGyro
  | compass => dataReadySecondaryCompass

def calibr : BaseSensor → BitVec 16
  | accel => motionEventAccelCalibr
  | gyro => motionEventGyroCalibr
  | compass => motionEventCompassCalibr

def accuracy : BaseSensor → BitVec 16
  | accel => outputControl2AccelAccuracy
  | gyro => outputControl2GyroAccuracy
  | compass => outputControl2CompassAccuracy

/-- The data of `DATA_OUT_CTL1` that has an accuracy. -/
def data : BaseSensor → BitVec 16
  | accel => outputControl1Accel
  | gyro => outputControl1GyroCalibr ||| outputControl1Gyro
  | compass => outputControl1CompassCalibr ||| outputControl1Compass ||| outputControl1Quat9 |||
      outputControl1Geomag

end BaseSensor

/-- Some sensor of the set is computed from the base sensor. -/
def Needs (E : Finset ℕ) (base : BaseSensor) : Prop := ∃ i ∈ E, i ∈ base.dependents

instance (E : Finset ℕ) (base : BaseSensor) : Decidable (Needs E base) :=
  inferInstanceAs (Decidable (∃ i ∈ E, i ∈ base.dependents))

/-- The control words that `enable_dmp_sensor` writes. -/
structure ControlWords where
  dataOutCtl1 : BitVec 16
  dataOutCtl2 : BitVec 16
  dataRdyStatus : BitVec 16
  motionEventCtl : BitVec 16

/-- The control words say what the set of sensors asks for. -/
structure Reflects (E : Finset ℕ) (c : ControlWords) : Prop where
  outputs : c.dataOutCtl1 = controlWord E
  accuracy : ∀ base : BaseSensor,
    anyBit c.dataOutCtl2 base.accuracy = true ↔ anyBit c.dataOutCtl1 base.data = true
  ready : ∀ base : BaseSensor, anyBit c.dataRdyStatus base.dataReady = true ↔ Needs E base
  calibration : ∀ base : BaseSensor, anyBit c.motionEventCtl base.calibr = true ↔ Needs E base

/-- What is written for a set of sensors. -/
def controlsFor (E : Finset ℕ) : ControlWords where
  dataOutCtl1 := controlWord E
  dataOutCtl2 := accuracyBits (controlWord E)
  dataRdyStatus := dataReadyAccel ||| dataReadyGyro ||| dataReadySecondaryCompass
  motionEventCtl :=
    motionEventAccelCalibr ||| motionEventGyroCalibr ||| motionEventCompassCalibr |||
      eventBits (controlWord E)

/-- A big-endian word of DMP memory. -/
def wordAt (m : DmpMemory) (a : BitVec 16) : BitVec 16 := m.at a ++ m.at (a + 1)

def controlsAt (m : DmpMemory) : ControlWords where
  dataOutCtl1 := wordAt m dataOutCtl1Addr
  dataOutCtl2 := wordAt m dataOutCtl2Addr
  dataRdyStatus := wordAt m dataRdyStatusAddr
  motionEventCtl := wordAt m motionEventCtlAddr

theorem anyBit_or {w : ℕ} (a x y : BitVec w) :
    anyBit a (x ||| y) = (anyBit a x || anyBit a y) := by
  simp only [anyBit, and_or_ne_zero, Bool.decide_or]

theorem anyBit_comm {w : ℕ} (a b : BitVec w) : anyBit a b = anyBit b a := by
  unfold anyBit
  rw [BitVec.and_comm]

/-- The accuracy is asked for exactly with the data. -/
theorem accuracyBits_iff (delta : BitVec 16) (base : BaseSensor) :
    anyBit (accuracyBits delta) base.accuracy = anyBit delta base.data := by
  -- one case for each combination of conditions
  have hbits (a g c : Bool) :
      let bits := (if a then outputControl2AccelAccuracy else 0) |||
        (if g then outputControl2GyroAccuracy else 0) |||
        (if c then outputControl2CompassAccuracy else 0)
      anyBit bits outputControl2AccelAccuracy = a ∧ anyBit bits outputControl2GyroAccuracy = g ∧
        anyBit bits outputControl2CompassAccuracy = c := by
    cases a <;> cases g <;> cases c <;> decide
  obtain ⟨haccel, hgyro, hcompass⟩ := hbits (anyBit delta outputControl1Accel)
    (anyBit delta outputControl1GyroCalibr || anyBit delta outputControl1Gyro)
    (anyBit delta outputControl1CompassCalibr || anyBit delta outputControl1Compass ||
      anyBit delta outputControl1Quat9 || anyBit delta outputControl1Geomag)
  cases base with
  | accel => exact haccel
  | gyro =>
    rw [BaseSensor.data, anyBit_or]
    exact hgyro
  | compass =>
    rw [BaseSensor.data, anyBit_or, anyBit_or, anyBit_or]
    exact hcompass

theorem ready_controlsFor (E : Finset ℕ) (base : BaseSensor) :
    anyBit (controlsFor E).dataRdyStatus base.dataReady = true := by
  have hall : anyBit (dataReadyAccel ||| dataReadyGyro ||| dataReadySecondaryCompass)
      base.dataReady = true := by cases base <;> decide
  exact hall

theorem calibration_controlsFor (E : Finset ℕ) (base : BaseSensor) :
    anyBit (controlsFor E).motionEventCtl base.calibr = true := by
  -- the bits for the events are only added
  have hall : anyBit (motionEventAccelCalibr ||| motionEventGyroCalibr |||
      motionEventCompassCalibr) base.calibr = true := by cases base <;> decide
  rw [controlsFor, anyBit_comm, anyBit_or, anyBit_comm, hall, Bool.true_or]

/-- What is written fits the set exactly if its sensors need all three base sensors. -/
theorem reflects_controlsFor_iff (E : Finset ℕ) :
    Reflects E (controlsFor E) ↔ ∀ base, Needs E base := by
  constructor
  · intro h base
    exact (h.ready base).mp (ready_controlsFor E base)
  · intro hneeds
    constructor
    · rfl
    · intro base
      rw [← accuracyBits_iff]
      rfl
    · intro base
      exact iff_of_true (ready_controlsFor E base) (hneeds base)
    · intro base
      exact iff_of_true (calibration_controlsFor E base) (hneeds base)

/-! ## Words in DMP memory -/

section
variable {reg a value : BitVec 16} {m m' : DmpMemory}

theorem hiByte_append_loByte (value : BitVec 16) : hiByte value ++ loByte value = value :=
  eq_of_bytes (hiByte_append _ _) (loByte_append _ _)

theorem wordAt_of_stored (h : Stored reg [hiByte value, loByte value] m m') :
    wordAt m' reg = value := by
  have hhi : m'.at reg = hiByte value := by
    have hfirst := h.1 0 (Nat.zero_lt_succ 1)
    rwa [show reg + BitVec.ofNat 16 0 = reg from BitVec.add_zero reg] at hfirst
  have hlo : m'.at (reg + 1) = loByte value := h.1 1 (Nat.lt_succ_self 1)
  rw [wordAt, hhi, hlo, hiByte_append_loByte]

/-- The words at the two addresses have no byte in common. -/
def Apart (a reg : BitVec 16) : Prop := a ≠ reg ∧ a ≠ reg + 1 ∧ a + 1 ≠ reg ∧ a + 1 ≠ reg + 1

instance (a reg : BitVec 16) : Decidable (Apart a reg) := inferInstanceAs (Decidable (_ ∧ _))

theorem wordAt_of_apart (h : Stored reg [hiByte value, loByte value] m m') (hapart : Apart a reg) :
    wordAt m' a = wordAt m a := by
  have hother (b : BitVec 16) (hb : b ≠ reg) (hb' : b ≠ reg + 1) : m'.at b = m.at b := by
    apply h.2
    intro i hi
    have hi : i < 2 := hi
    obtain rfl | rfl : i = 0 ∨ i = 1 := by omega
    · rwa [show reg + BitVec.ofNat 16 0 = reg from BitVec.add_zero reg]
    · exact hb'
  obtain ⟨h₁, h₂, h₃, h₄⟩ := hapart
  unfold wordAt
  rw [hother a h₁ h₂, hother (a + 1) h₃ h₄]

end

/-! ## One call -/

section
variable {pdev pdev' : Device} {s s' : Port DmpMemory} {tr : BusTrace (Port DmpMemory)}
  {retval : Status}

/-- The control words are all in bank 0. -/
def ControlBank (pdev : Device) (s : Port DmpMemory) : Prop := pdev.lastMemsBank = 0 → s.bank = 0

/-- Waking the chip does not touch the memory. -/
theorem exec_wakeFor_good {p : Drv Status}
    (hexec : Prog.Exec memoryBacking.device ((wakeFor p).run pdev) s tr (retval, pdev') s')
    (hok : AllOk tr) :
    ∃ t, Prog.Exec memoryBacking.device (p.run pdev) s t (retval, pdev') s' ∧ AllOk t := by
  unfold wakeFor at hexec
  obtain ⟨r₁, pdev₁, s₁, t₁, t₂, rfl, hsleep, hexec₁⟩ := exec_guardM.mp hexec
  obtain ⟨hok₁, hok₂⟩ := allOk_append t₁ t₂ |>.mp hok
  obtain ⟨hsleep', rfl⟩ := (Prog.exec_lift _ _ _ _ _ _ _ _).mp hsleep
  obtain rfl : r₁ = Status.ok := (succeeds_updateReg _ _ _).exec hsleep' hok₁
  obtain rfl := exec_powerMgmt hsleep'
  rw [if_pos rfl] at hexec₁
  obtain ⟨r₂, pdev₂, s₂, t₃, t₄, rfl, hpower, hexec₂⟩ := exec_guardM.mp hexec₁
  obtain ⟨hok₃, hok₄⟩ := allOk_append t₃ t₄ |>.mp hok₂
  obtain ⟨hpower', rfl⟩ := (Prog.exec_lift _ _ _ _ _ _ _ _).mp hpower
  obtain rfl : r₂ = Status.ok := (succeeds_updateReg _ _ _).exec hpower' hok₃
  obtain rfl := exec_powerMgmt hpower'
  rw [if_pos rfl] at hexec₂
  exact ⟨t₄, hexec₂, hok₄⟩

/-- Recording a control word, writing it and going on. -/
theorem exec_writeControl {reg value : BitVec 16} {f : Device → Device} {q : Status → Drv Status}
    (hreg : reg.toNat < 255) (hf : (f pdev).lastMemsBank = pdev.lastMemsBank)
    (hbank : ControlBank pdev s)
    (hexec : Prog.Exec memoryBacking.device ((modify f >>= fun _ => writeMems16 reg value >>=
      fun result => if result ≠ Status.ok then pure result else q result).run pdev) s tr
        (retval, pdev') s') (hok : AllOk tr) :
    ∃ pdev₁ s₁ t, Prog.Exec memoryBacking.device ((q Status.ok).run pdev₁) s₁ t (retval, pdev') s' ∧
      AllOk t ∧ ControlBank pdev₁ s₁ ∧
      Stored reg [hiByte value, loByte value] s.mem s₁.mem := by
  -- the address is in bank 0, and so is whatever is remembered of the last one
  have hhi : hiByte reg = 0 := by
    apply BitVec.eq_of_toNat_eq
    rw [toNat_hiByte]
    show reg.toNat / 256 = 0
    omega
  have hright : RememberedRight (f pdev) s reg := by
    intro h
    rw [hhi, hf] at h
    rw [hhi]
    exact hbank h.symm
  rw [StateT.run_bind, StateT.run_modify, pure_bind] at hexec
  obtain ⟨r, pdev₁, s₁, t₁, t₂, rfl, hwrite, hrest⟩ := exec_guardM.mp hexec
  obtain ⟨hok₁, hok₂⟩ := allOk_append t₁ t₂ |>.mp hok
  obtain ⟨rfl, -, hbank₁, hmem⟩ := writeMems_good hright hwrite hok₁
  rw [if_pos rfl] at hrest
  refine ⟨pdev₁, s₁, t₂, hrest, hok₂, fun _ => hbank₁.trans hhi, ?_⟩
  -- two bytes below the end of the bank do not wrap
  have hlen : reg.toNat + [hiByte value, loByte value].length ≤ 65536 := by
    show reg.toNat + 2 ≤ 65536
    omega
  have hwithin : reg.toNat % 256 + [hiByte value, loByte value].length ≤ 256 := by
    show reg.toNat % 256 + 2 ≤ 256
    omega
  rw [hmem]
  exact stored_of_wrapsHarmlessly hlen (wrapsHarmlessly_of_within hwithin s.mem)

/-- The four words lie side by side, so that each is in the end what was written there. -/
theorem exec_configureOutputs_good {acc : Rebuild} (hbank : ControlBank pdev s)
    (hexec : Prog.Exec memoryBacking.device ((configureOutputs acc).run pdev) s tr (retval, pdev')
      s') (hok : AllOk tr) :
    ControlBank pdev' s' ∧ controlsAt s'.mem = ⟨acc.delta, accuracyBits acc.delta,
      acc.dataRdyStatus, acc.invEventControl ||| eventBits acc.delta⟩ := by
  obtain ⟨t, hwrite, hok⟩ := exec_wakeFor_good hexec hok
  unfold writeOutputs at hwrite
  obtain ⟨pdev₁, s₁, t₁, hexec₁, hok₁, hbank₁, hctl1⟩ :=
    exec_writeControl (by decide) rfl hbank hwrite hok
  obtain ⟨pdev₂, s₂, t₂, hexec₂, hok₂, hbank₂, hctl2⟩ :=
    exec_writeControl (by decide) rfl hbank₁ hexec₁ hok₁
  obtain ⟨pdev₃, s₃, t₃, hexec₃, hok₃, hbank₃, hrdy⟩ :=
    exec_writeControl (by decide) rfl hbank₂ hexec₂ hok₂
  obtain ⟨pdev₄, s₄, t₄, hexec₄, hok₄, hbank₄, hevent⟩ :=
    exec_writeControl (by decide) rfl hbank₃ hexec₃ hok₃
  obtain ⟨hpower, rfl⟩ := (Prog.exec_lift _ _ _ _ _ _ _ _).mp hexec₄
  obtain rfl := exec_powerMgmt hpower
  -- no word overlaps one that is written after it
  refine ⟨hbank₄, ?_⟩
  unfold controlsAt
  congr 1
  · rw [wordAt_of_apart hevent (by decide), wordAt_of_apart hrdy (by decide),
      wordAt_of_apart hctl2 (by decide), wordAt_of_stored hctl1]
  · rw [wordAt_of_apart hevent (by decide), wordAt_of_apart hrdy (by decide),
      wordAt_of_stored hctl2]
  · rw [wordAt_of_apart hevent (by decide), wordAt_of_stored hrdy]
  · exact wordAt_of_stored hevent

end

/-! ## Runs -/

/-- A call of `enable_dmp_sensor` for a sensor that is supported. -/
structure SensorSwitch where
  sensor : BitVec 32
  state : Int
  supported : Supported (sensorType2AndroidSensor sensor)

/-- The call on a bus without failures. -/
def switchStep (w : Device × Port DmpMemory) (call : SensorSwitch)
    (w' : Device × Port DmpMemory) : Prop :=
  ∃ bus retval, Prog.Exec memoryBacking.device ((enableDmpSensor call.sensor call.state).run w.1)
    w.2 bus (retval, w'.1) w'.2 ∧ AllOk bus

/-- The set of enabled sensors after the calls. -/
def enabledAfter (tr : List (Step (Device × Port DmpMemory) SensorSwitch)) (E : Finset ℕ) :
    Finset ℕ :=
  tr.foldl (fun E x => switched E (sensorType2AndroidSensor x.label.sensor) x.label.state) E

/-- The DMP is there, all sensors recorded are in the table, and the remembered bank is right. -/
structure SwitchReady (w : Device × Port DmpMemory) : Prop where
  avail : w.1.dmpFirmwareAvailable = true
  table : InTable w.1.enabled
  bank : ControlBank w.1 w.2

section
variable {w w' : Device × Port DmpMemory}

theorem switchStep_spec {call : SensorSwitch} (hready : SwitchReady w)
    (hstep : switchStep w call w') :
    SwitchReady w' ∧ controlsAt w'.2.mem = controlsFor w'.1.enabled ∧
      w'.1.enabled =
        switched w.1.enabled (sensorType2AndroidSensor call.sensor) call.state := by
  obtain ⟨bus, retval, hexec, hok⟩ := hstep
  -- the sensor is recorded before anything is written
  let pdev := w.1.switchSensor (sensorType2AndroidSensor call.sensor) call.state
  have henabled : pdev.enabled =
      switched w.1.enabled (sensorType2AndroidSensor call.sensor) call.state :=
    enabled_switchSensor w.1 call.supported.lt call.state
  have htable : InTable pdev.enabled := by
    rw [henabled]
    exact hready.table.switched call.supported.1 call.state
  have havail : pdev.dmpFirmwareAvailable = true :=
    ((SensorCall.enable call.sensor call.state).avail_record w.1).trans hready.avail
  have hbank : ControlBank pdev w.2 := by
    have hlast : pdev.lastMemsBank = w.1.lastMemsBank := by
      show (w.1.switchSensor _ call.state).lastMemsBank = _
      unfold Device.switchSensor
      split <;> rfl
    intro h
    exact hready.bank (hlast.symm.trans h)
  rw [run_enableDmpSensor hready.avail call.supported, run_reconfigureOutputs htable] at hexec
  have hrecorded : w'.1.recorded = pdev.recorded := (leaves_configureOutputs _ pdev).exec hexec
  have henabled' := enabled_of_recorded hrecorded
  obtain ⟨hbank', hcontrols⟩ := exec_configureOutputs_good hbank hexec hok
  refine ⟨⟨?_, ?_, hbank'⟩, ?_, ?_⟩
  · rw [avail_of_recorded hrecorded]
    exact havail
  · rw [henabled']
    exact htable
  · rw [hcontrols, henabled']
    rfl
  · rw [henabled', henabled]

/-- After any calls the sensors recorded are those that the calls have switched on, and the control
words are the ones for these sensors. -/
theorem controls_after_switches {tr : List (Step (Device × Port DmpMemory) SensorSwitch)}
    (hready : SwitchReady w) (hrun : Run switchStep w tr w') :
    w'.1.enabled = enabledAfter tr w.1.enabled ∧
      (tr ≠ [] → controlsAt w'.2.mem = controlsFor w'.1.enabled) := by
  -- the invariant: from the first call on, the words are those for the set that is recorded
  have hinv := @Run.history _ _ _ (fun past v => SwitchReady v ∧
      v.1.enabled = enabledAfter past w.1.enabled ∧
      (past ≠ [] → controlsAt v.2.mem = controlsFor v.1.enabled)) _ _ _ hrun ?_ ?_
  · exact hinv.2
  · exact ⟨hready, rfl, fun h => absurd rfl h⟩
  · intro past x hpre hstep
    obtain ⟨hready', hcontrols, henabled⟩ := switchStep_spec hpre.1 hstep
    refine ⟨hready', ?_, fun _ => hcontrols⟩
    rw [henabled, hpre.2.1]
    unfold enabledAfter
    rw [List.foldl_append]
    rfl

end

theorem enabled_deviceAt (bank : Byte) : (deviceAt bank).enabled = ∅ := sensorsIn_zero

/-- A device structure on which no sensor has been enabled yet, without a remembered bank. -/
theorem switchReady_deviceAt (s : Port DmpMemory) : SwitchReady (deviceAt 255, s) := by
  constructor
  · rfl
  · show InTable (deviceAt 255).enabled
    rw [enabled_deviceAt]
    exact fun i hi => absurd hi (Finset.notMem_empty i)
  · have hbank : ¬ (255 : Byte) = 0 := by decide
    exact fun h => absurd h hbank

/-- One call on a chip on which nothing fails. -/
def afterSwitch (w : Device × Port DmpMemory) (call : SensorSwitch) : Device × Port DmpMemory :=
  let out := Prog.run (memoryBacking.chip memoryAnswer)
    ((enableDmpSensor call.sensor call.state).run w.1) w.2
  (out.1.2, out.2)

def switchRun (w : Device × Port DmpMemory) :
    List SensorSwitch → List (Step (Device × Port DmpMemory) SensorSwitch)
  | [] => []
  | call :: calls => ⟨w, call, afterSwitch w call⟩ :: switchRun (afterSwitch w call) calls

theorem run_switchRun (w : Device × Port DmpMemory) (calls : List SensorSwitch) :
    Run switchStep w (switchRun w calls) (calls.foldl afterSwitch w) := by
  induction calls generalizing w with
  | nil => rfl
  | cons call calls ih =>
    obtain ⟨hexec, hok⟩ :=
      exec_chip read_memoryAnswer (enableDmpSensor call.sensor call.state) w.1 w.2
    exact ⟨rfl, ⟨_, _, hexec, hok⟩, ih (afterSwitch w call)⟩

theorem enabledAfter_switchRun (w : Device × Port DmpMemory) (calls : List SensorSwitch)
    (E : Finset ℕ) : enabledAfter (switchRun w calls) E =
      calls.foldl (fun E call => switched E (sensorType2AndroidSensor call.sensor) call.state) E := by
  induction calls generalizing w E with
  | nil => rfl
  | cons call calls ih => exact ih (afterSwitch w call) _

/-- The accelerometer alone: the gyro and the compass are asked for as well. -/
theorem accel_asks_for_all :
    ¬ ∀ (w w' : Device × Port DmpMemory)
      (tr : List (Step (Device × Port DmpMemory) SensorSwitch)),
      SwitchReady w → tr ≠ [] → Run switchStep w tr w' →
      Reflects (enabledAfter tr w.1.enabled) (controlsAt w'.2.mem) := by
  intro h
  let call : SensorSwitch := ⟨0, 1, by decide⟩
  let s : Port DmpMemory := ⟨0, 0, fun _ _ => 0⟩
  have hready := switchReady_deviceAt s
  have hrun := run_switchRun (deviceAt 255, s) [call]
  have hne : switchRun (deviceAt 255, s) [call] ≠ [] := List.cons_ne_nil _ _
  have hreflects := h _ _ _ hready hne hrun
  obtain ⟨henabled, hcontrols⟩ := controls_after_switches hready hrun
  rw [hcontrols hne, henabled, reflects_controlsFor_iff] at hreflects
  have hneeds : Needs (switched (deviceAt 255).enabled 1 1) .gyro := hreflects .gyro
  rw [enabled_deviceAt] at hneeds
  exact absurd hneeds (by decide)

/-- The control words after any calls depend only on the set of sensors that the calls have switched
on, and they say what the set asks for exactly if some sensor of it needs the accelerometer, some
sensor the gyro and some sensor the compass. -/
theorem control_words_reflect_iff (w w' : Device × Port DmpMemory)
    (tr : List (Step (Device × Port DmpMemory) SensorSwitch)) (hready : SwitchReady w)
    (hne : tr ≠ []) (hrun : Run switchStep w tr w') :
    w'.1.enabled = enabledAfter tr w.1.enabled ∧
    controlsAt w'.2.mem = controlsFor (enabledAfter tr w.1.enabled) ∧
    (Reflects (enabledAfter tr w.1.enabled) (controlsAt w'.2.mem) ↔
      ∀ base, Needs (enabledAfter tr w.1.enabled) base) := by
  obtain ⟨henabled, hcontrols⟩ := controls_after_switches hready hrun
  have hcontrols := hcontrols hne
  rw [henabled] at hcontrols
  refine ⟨henabled, hcontrols, ?_⟩
  rw [hcontrols]
  exact reflects_controlsFor_iff _

/-- The rotation vector needs all three, and keeps them when the accelerometer is switched off. -/
theorem control_words_reflect_iff_rotation_vector :
    let w : Device × Port DmpMemory := (deviceAt 255, ⟨0, 0, fun _ _ => 0⟩)
    let calls : List SensorSwitch := [⟨0, 1, by decide⟩, ⟨10, 1, by decide⟩, ⟨0, 0, by decide⟩]
    Reflects {11} (controlsAt (calls.foldl afterSwitch w).2.mem) := by
  intro w calls
  have hready : SwitchReady w := switchReady_deviceAt _
  have hne : switchRun w calls ≠ [] := List.cons_ne_nil _ _
  have hiff := (control_words_reflect_iff w _ _ hready hne (run_switchRun w calls)).2.2
  have hset : enabledAfter (switchRun w calls) w.1.enabled = {11} := by
    rw [enabledAfter_switchRun]
    show calls.foldl _ (deviceAt 255).enabled = {11}
    rw [enabled_deviceAt]
    decide
  rw [hset] at hiff
  apply hiff.mpr
  intro base
  cases base <;> decide

end SimuSound.Imu
