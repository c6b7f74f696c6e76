import SimuSound.Imu.Reporting
import SimuSound.Reasoning.BitSet
import SimuSound.Reasoning.Transition

/-!
# SensorSets — the enabled sensors as sets

The device structure records the enabled sensors and interrupts as bits of two words each.  As long
as all of them lie within the table of control bits, rebuilding the control values from the words is
collecting what the sensors in the set ask for.
-/

namespace SimuSound.Imu

open Reasoning

/-! ## Sets of Android sensors -/

/-- The Android sensors of two words: 0 to 31, and 32 to 63. -/
def sensorsIn (word0 word1 : BitVec 32) : Finset ℕ := BitSet.members (word1 ++ word0)

def Device.enabled (pdev : Device) : Finset ℕ :=
  sensorsIn pdev.enabledAndroid0 pdev.enabledAndroid1

def Device.enabledIntr (pdev : Device) : Finset ℕ :=
  sensorsIn pdev.enabledAndroidIntr0 pdev.enabledAndroidIntr1

/-- The set after one sensor is switched. -/
def switched (E : Finset ℕ) (androidSensor : ℕ) (state : Int) : Finset ℕ :=
  if state = 0 then E.erase androidSensor else insert androidSensor E

/-- An entry of the table. -/
def controlBitsOf (androidSensor : ℕ) : BitVec 16 := androidSensorToControlBits.getD androidSensor 0

/-- The table has an entry for the sensor, and it is not the one for unsupported sensors. -/
def Supported (androidSensor : ℕ) : Prop :=
  androidSensor < androidSensorNumMax ∧ controlBitsOf androidSensor ≠ 0xFFFF

theorem Supported.lt {androidSensor : ℕ} (h : Supported androidSensor) : androidSensor < 64 :=
  Nat.lt_of_lt_of_le h.1 (by decide)

instance : DecidablePred Supported := fun _ => inferInstanceAs (Decidable (_ ∧ _))

/-- All sensors of the set have an entry. -/
def InTable (E : Finset ℕ) : Prop := ∀ i ∈ E, i < androidSensorNumMax

/-- `DATA_OUT_CTL1` or `DATA_INTR_CTL` for a set of sensors. -/
def controlWord (E : Finset ℕ) : BitVec 16 := BitSet.gather E controlBitsOf

theorem mem_sensorsIn {word0 word1 : BitVec 32} {i : ℕ} :
    i ∈ sensorsIn word0 word1 ↔
      if i < 32 then i ∈ BitSet.members word0 else i - 32 ∈ BitSet.members word1 :=
  BitSet.mem_members_append

theorem sensorsIn_zero : sensorsIn 0 0 = ∅ := BitSet.members_zero

theorem members_switchBit (enabled : BitVec 32) {i : ℕ} (hi : i < 32) (state : Int) :
    BitSet.members (switchBit enabled i state) = switched (BitSet.members enabled) i state := by
  unfold switchBit switched
  split
  · exact BitSet.members_and_not_twoPow enabled hi
  · exact BitSet.members_or_twoPow enabled hi

theorem mem_switched {E : Finset ℕ} {a i : ℕ} {state : Int} :
    i ∈ switched E a state ↔ if i = a then state ≠ 0 else i ∈ E := by
  unfold switched
  by_cases hstate : state = 0
  · by_cases hi : i = a
    · simp [hstate, hi]
    · simp [hstate, hi]
  · by_cases hi : i = a
    · simp [hstate, hi]
    · simp [hstate, hi]

/-- Switching a sensor's bit switches it in the set of the two words. -/
theorem sensorsIn_switchBit (word0 word1 : BitVec 32) {a : ℕ} (ha : a < 64) (state : Int) :
    (if a < 32 then sensorsIn (switchBit word0 a state) word1
      else sensorsIn word0 (switchBit word1 (a - 32) state)) =
    switched (sensorsIn word0 word1) a state := by
  -- by the word that the sensor is in, and then by whether it is the one asked about
  ext i
  rw [mem_switched]
  by_cases ha' : a < 32
  · rw [if_pos ha', mem_sensorsIn, mem_sensorsIn, members_switchBit word0 ha', mem_switched]
    by_cases hi : i = a
    · simp [hi, ha']
    · simp [hi]
  · rw [if_neg ha', mem_sensorsIn, mem_sensorsIn, members_switchBit word1 (by omega), mem_switched]
    by_cases hi : i = a
    · simp [hi, ha']
    · by_cases hlt : i < 32
      · simp [hi, hlt]
      · have hne : i - 32 ≠ a - 32 := by omega
        simp [hi, hlt, hne]

theorem enabled_switchSensor (pdev : Device) {a : ℕ} (ha : a < 64) (state : Int) :
    (pdev.switchSensor a state).enabled = switched pdev.enabled a state := by
  unfold Device.enabled
  rw [← sensorsIn_switchBit _ _ ha]
  unfold Device.switchSensor
  split <;> rfl

theorem enabledIntr_switchSensorInt (pdev : Device) {a : ℕ} (ha : a < 64) (state : Int) :
    (pdev.switchSensorInt a state).enabledIntr = switched pdev.enabledIntr a state := by
  unfold Device.enabledIntr
  rw [← sensorsIn_switchBit _ _ ha]
  unfold Device.switchSensorInt
  split <;> rfl

/-- Switching a sensor to what it is changes nothing. -/
theorem switched_eq_self_iff {E : Finset ℕ} {a : ℕ} {state : Int} :
    switched E a state = E ↔ (a ∈ E ↔ state ≠ 0) := by
  constructor
  · intro h
    have ha : a ∈ switched E a state ↔ a ∈ E := by rw [h]
    rw [mem_switched, if_pos rfl] at ha
    exact ha.symm
  · intro h
    ext i
    rw [mem_switched]
    split
    · rename_i hi
      rw [hi, h]
    · exact Iff.rfl

theorem enabledIntr_switchSensor (pdev : Device) (a : ℕ) (state : Int) :
    (pdev.switchSensor a state).enabledIntr = pdev.enabledIntr := by
  unfold Device.switchSensor
  split <;> rfl

theorem enabled_switchSensorInt (pdev : Device) (a : ℕ) (state : Int) :
    (pdev.switchSensorInt a state).enabled = pdev.enabled := by
  unfold Device.switchSensorInt
  split <;> rfl

theorem InTable.switched {E : Finset ℕ} (h : InTable E) {a : ℕ} (ha : a < androidSensorNumMax)
    (state : Int) : InTable (switched E a state) := by
  intro i hi
  rw [mem_switched] at hi
  split at hi
  · rename_i heq
    rw [heq]
    exact ha
  · exact h i hi

/-! ## The rebuilding loops -/

theorem anyBit_sensorBit {enabled : BitVec 32} {i : ℕ} :
    anyBit enabled (sensorBit i) = true ↔ i ∈ BitSet.members enabled := by
  unfold anyBit
  rw [decide_eq_true_iff]
  exact BitSet.and_twoPow_ne_zero

/-- What the sensors `i` and `i + 32` ask for, if they are enabled. -/
def turnBits (E : Finset ℕ) (i : ℕ) : BitVec 16 :=
  (if i ∈ E then controlBitsOf i else 0) ||| (if i + 32 ∈ E then controlBitsOf (i + 32) else 0)

theorem controlBits_eq {i : ℕ} (hi : i < androidSensorNumMax) :
    controlBits i = pure (controlBitsOf i) := by
  have hget : androidSensorToControlBits[i]? = some (controlBitsOf i) := by
    unfold controlBitsOf
    have hlt : i < androidSensorToControlBits.length := hi
    rw [List.getD_eq_getElem?_getD, List.getElem?_eq_getElem hlt]
    rfl
  unfold controlBits
  rw [hget]

theorem rebuildDelta_eq {word0 word1 : BitVec 32} (htable : InTable (sensorsIn word0 word1))
    {i : ℕ} (hi : i < 32) (delta : BitVec 16) :
    rebuildDelta word0 word1 delta i =
      pure (delta ||| turnBits (sensorsIn word0 word1) i) := by
  have hmem0 : i ∈ sensorsIn word0 word1 ↔ anyBit word0 (sensorBit i) = true := by
    rw [mem_sensorsIn, if_pos hi, anyBit_sensorBit]
  have hmem1 : i + 32 ∈ sensorsIn word0 word1 ↔ anyBit word1 (sensorBit i) = true := by
    rw [mem_sensorsIn, if_neg (by omega), Nat.add_sub_cancel, anyBit_sensorBit]
  unfold rebuildDelta turnBits
  simp only [← hmem0, ← hmem1]
  -- the two tests of one turn
  by_cases h0 : i ∈ sensorsIn word0 word1
  · have hbits0 := controlBits_eq (htable i h0)
    by_cases h1 : i + 32 ∈ sensorsIn word0 word1
    · have hbits1 := controlBits_eq (htable (i + 32) h1)
      simp only [if_pos h0, if_pos h1, hbits0, hbits1, pure_bind, BitVec.or_assoc]
    · simp only [if_pos h0, if_neg h1, hbits0, pure_bind, BitVec.or_assoc]
  · by_cases h1 : i + 32 ∈ sensorsIn word0 word1
    · have hbits1 := controlBits_eq (htable (i + 32) h1)
      simp only [if_neg h0, if_pos h1, hbits1, pure_bind, BitVec.or_assoc]
    · simp only [if_neg h0, if_neg h1, pure_bind, BitVec.or_assoc]

theorem foldlM_rebuildDelta {word0 word1 : BitVec 32} (htable : InTable (sensorsIn word0 word1))
    {l : List ℕ} (hl : ∀ i ∈ l, i < 32) (delta : BitVec 16) :
    l.foldlM (rebuildDelta word0 word1) delta =
      pure (l.foldl (fun acc i => acc ||| turnBits (sensorsIn word0 word1) i) delta) := by
  induction l generalizing delta with
  | nil => rfl
  | cons i l ih =>
    rw [List.foldlM_cons, rebuildDelta_eq htable (hl i List.mem_cons_self), pure_bind]
    exact ih (fun j hj => hl j (List.mem_cons_of_mem i hj)) _

/-- The loop collects the entries of all sensors of the set, half of them in each word. -/
theorem foldl_turnBits {E : Finset ℕ} (htable : InTable E) :
    (List.range 32).foldl (fun acc i => acc ||| turnBits E i) 0 = controlWord E := by
  apply BitSet.eq_of_getLsbD
  intro k
  have hzero : ¬ (0 : BitVec 16).getLsbD k = true := by simp
  rw [BitSet.getLsbD_foldl_or, controlWord, BitSet.getLsbD_gather, or_iff_right hzero]
  -- turn `i` contributes the entries of the sensors `i` and `i + 32`
  have hturn (i : ℕ) : (turnBits E i).getLsbD k = true ↔
      i ∈ E ∧ (controlBitsOf i).getLsbD k = true ∨
        i + 32 ∈ E ∧ (controlBitsOf (i + 32)).getLsbD k = true := by
    have hif (j : ℕ) : (if j ∈ E then controlBitsOf j else 0).getLsbD k = true ↔
        j ∈ E ∧ (controlBitsOf j).getLsbD k = true := by
      split
      · rename_i hj
        rw [and_iff_right hj]
      · rename_i hj
        exact iff_of_false hzero fun h => hj h.1
    rw [turnBits, BitVec.getLsbD_or, Bool.or_eq_true, hif, hif]
  constructor
  · rintro ⟨i, -, hi⟩
    rcases (hturn i).mp hi with h | h
    · exact ⟨i, h⟩
    · exact ⟨i + 32, h⟩
  · rintro ⟨i, hi, hbit⟩
    have hbound : i < 44 := htable i hi
    by_cases hlt : i < 32
    · exact ⟨i, List.mem_range.mpr hlt, (hturn i).mpr (Or.inl ⟨hi, hbit⟩)⟩
    · have hsub : i - 32 + 32 = i := by omega
      refine ⟨i - 32, List.mem_range.mpr (by omega), (hturn _).mpr (Or.inr ?_)⟩
      rw [hsub]
      exact ⟨hi, hbit⟩

theorem rebuildIntr_eq {word0 word1 : BitVec 32} (htable : InTable (sensorsIn word0 word1)) :
    rebuildIntr word0 word1 = pure (controlWord (sensorsIn word0 word1)) := by
  unfold rebuildIntr
  rw [foldlM_rebuildDelta htable fun i hi => List.mem_range.mp hi, foldl_turnBits htable]

/-- The data that the turn asks to be ready, whatever is enabled. -/
def turnReady (i : ℕ) : BitVec 16 :=
  (if anyBit (sensorBit i) invNeedsAccelMask || anyBit (sensorBit i) invNeedsAccelMask1 then
    dataReadyAccel else 0) |||
  (if anyBit (sensorBit i) invNeedsGyroMask || anyBit (sensorBit i) invNeedsGyroMask1 then
    dataReadyGyro else 0) |||
  (if anyBit (sensorBit i) invNeedsCompassMask || anyBit (sensorBit i) invNeedsCompassMask1 then
    dataReadySecondaryCompass else 0)

/-- The calibrations that the turn asks for, whatever is enabled. -/
def turnCalibr (i : ℕ) : BitVec 16 :=
  (if anyBit (sensorBit i) invNeedsAccelMask || anyBit (sensorBit i) invNeedsAccelMask1 then
    motionEventAccelCalibr else 0) |||
  (if anyBit (sensorBit i) invNeedsGyroMask || anyBit (sensorBit i) invNeedsGyroMask1 then
    motionEventGyroCalibr else 0) |||
  (if anyBit (sensorBit i) invNeedsCompassMask || anyBit (sensorBit i) invNeedsCompassMask1 then
    motionEventCompassCalibr else 0)

theorem foldlM_rebuildStep (word0 word1 : BitVec 32) (l : List ℕ) (acc : Rebuild) :
    l.foldlM (rebuildStep word0 word1) acc =
      (fun delta => ⟨delta, l.foldl (fun ready i => ready ||| turnReady i) acc.dataRdyStatus,
          l.foldl (fun calibr i => calibr ||| turnCalibr i) acc.invEventControl⟩) <$>
        l.foldlM (rebuildDelta word0 word1) acc.delta := by
  induction l generalizing acc with
  | nil => rfl
  | cons i l ih =>
    rw [List.foldlM_cons, List.foldlM_cons, map_bind, rebuildStep, bind_assoc]
    apply bind_congr
    intro delta
    rw [pure_bind, ih]
    simp only [List.foldl_cons, turnReady, turnCalibr, BitVec.or_assoc]

/-- Every rebuild asks for all data and for all calibrations. -/
theorem rebuild_eq_map (word0 word1 : BitVec 32) :
    rebuild word0 word1 =
      (fun delta => ⟨delta, dataReadyAccel ||| dataReadyGyro ||| dataReadySecondaryCompass,
          motionEventAccelCalibr ||| motionEventGyroCalibr ||| motionEventCompassCalibr⟩) <$>
        rebuildIntr word0 word1 := by
  -- each mask has a bit among the 32 that the loop goes through
  have hready : (List.range 32).foldl (fun ready i => ready ||| turnReady i) 0 =
      dataReadyAccel ||| dataReadyGyro ||| dataReadySecondaryCompass := by decide
  have hcalibr : (List.range 32).foldl (fun calibr i => calibr ||| turnCalibr i) 0 =
      motionEventAccelCalibr ||| motionEventGyroCalibr ||| motionEventCompassCalibr := by decide
  unfold rebuild rebuildIntr
  rw [foldlM_rebuildStep, hready, hcalibr]

/-! ## The two functions past their checks -/

/-- The chip is woken up first. -/
def wakeFor (p : Drv Status) : Drv Status := do
  let result ← sleep false
  if result ≠ Status.ok then return result
  let result ← lowPower false
  if result ≠ Status.ok then return result
  p

/-- The four control words of `enable_dmp_sensor`. -/
def writeOutputs (acc : Rebuild) : Drv Status := do
  let delta2 := accuracyBits acc.delta
  modify fun pdev => { pdev with dataOutCtl1 := acc.delta }
  let result ← writeMems16 dataOutCtl1Addr acc.delta
  if result ≠ Status.ok then return result
  modify fun pdev => { pdev with dataOutCtl2 := delta2 }
  let result ← writeMems16 dataOutCtl2Addr delta2
  if result ≠ Status.ok then return result
  modify fun pdev => { pdev with dataRdyStatus := acc.dataRdyStatus }
  let result ← writeMems16 dataRdyStatusAddr acc.dataRdyStatus
  if result ≠ Status.ok then return result
  let invEventControl := acc.invEventControl ||| eventBits acc.delta
  modify fun pdev => { pdev with motionEventCtl := invEventControl }
  let result ← writeMems16 motionEventCtlAddr invEventControl
  if result ≠ Status.ok then return result
  lowPower true

/-- The interrupt mask of `enable_dmp_sensor_int`. -/
def writeInterrupts (delta : BitVec 16) : Drv Status := do
  modify fun pdev => { pdev with dataIntrCtl := delta }
  let _result ← writeMems16 dataIntrCtlAddr delta
  lowPower true

/-- `enable_dmp_sensor` from the wake-up on. -/
def configureOutputs (acc : Rebuild) : Drv Status := wakeFor (writeOutputs acc)

/-- `enable_dmp_sensor_int` from the wake-up on. -/
def configureInterrupts (delta : BitVec 16) : Drv Status := wakeFor (writeInterrupts delta)

/-- `enable_dmp_sensor` once the sensor is recorded. -/
def reconfigureOutputs : Drv Status := do
  let pdev ← get
  let acc ← rebuild pdev.enabledAndroid0 pdev.enabledAndroid1
  configureOutputs acc

/-- `enable_dmp_sensor_int` once the sensor is recorded. -/
def reconfigureInterrupts : Drv Status := do
  let pdev ← get
  let delta ← rebuildIntr pdev.enabledAndroidIntr0 pdev.enabledAndroidIntr1
  configureInterrupts delta

section
variable {pdev : Device} {sensor : BitVec 32} {state : Int}

theorem run_reconfigureOutputs (htable : InTable pdev.enabled) :
    reconfigureOutputs.run pdev = (configureOutputs ⟨controlWord pdev.enabled,
      dataReadyAccel ||| dataReadyGyro ||| dataReadySecondaryCompass,
      motionEventAccelCalibr ||| motionEventGyroCalibr ||| motionEventCompassCalibr⟩).run pdev := by
  have hrebuild := rebuildIntr_eq htable
  unfold reconfigureOutputs
  rw [StateT.run_bind, StateT.run_get, pure_bind]
  show StateT.run (liftM (rebuild pdev.enabledAndroid0 pdev.enabledAndroid1) >>= _) pdev = _
  rw [rebuild_eq_map, hrebuild, map_pure, liftM_pure, pure_bind]
  rfl

theorem run_reconfigureInterrupts (htable : InTable pdev.enabledIntr) :
    reconfigureInterrupts.run pdev =
      (configureInterrupts (controlWord pdev.enabledIntr)).run pdev := by
  have hrebuild := rebuildIntr_eq htable
  unfold reconfigureInterrupts
  rw [StateT.run_bind, StateT.run_get, pure_bind]
  show StateT.run
    (liftM (rebuildIntr pdev.enabledAndroidIntr0 pdev.enabledAndroidIntr1) >>= _) pdev = _
  rw [hrebuild, liftM_pure, pure_bind]
  rfl

/-- A sensor within the table has an entry, or it is refused by its entry. -/
theorem controlBitsOf_eq_of_unsupported {androidSensor : ℕ} (h : ¬ Supported androidSensor)
    (hlt : androidSensor < androidSensorNumMax) : controlBitsOf androidSensor = 0xFFFF := by
  by_contra hbits
  exact h ⟨hlt, hbits⟩

theorem run_enableDmpSensor (havail : pdev.dmpFirmwareAvailable = true)
    (hsupported : Supported (sensorType2AndroidSensor sensor)) :
    (enableDmpSensor sensor state).run pdev =
      reconfigureOutputs.run (pdev.switchSensor (sensorType2AndroidSensor sensor) state) := by
  -- the DMP is there, the number is in range, and the entry is not the one for unsupported sensors
  change ((if pdev.dmpFirmwareAvailable = false then _ else _ : Drv Status)).run pdev = _
  rw [if_neg (not_eq_false_of_avail havail), if_neg (Nat.not_le.mpr hsupported.1),
    controlBits_eq hsupported.1]
  change ((if controlBitsOf (sensorType2AndroidSensor sensor) = 0xFFFF then _ else _ :
    Drv Status)).run pdev = _
  rw [if_neg hsupported.2]
  rfl

theorem run_enableDmpSensorInt (havail : pdev.dmpFirmwareAvailable = true)
    (hsupported : Supported (sensorType2AndroidSensor sensor)) :
    (enableDmpSensorInt sensor state).run pdev =
      reconfigureInterrupts.run
        (pdev.switchSensorInt (sensorType2AndroidSensor sensor) state) := by
  change ((if pdev.dmpFirmwareAvailable = false then _ else _ : Drv Status)).run pdev = _
  rw [if_neg (not_eq_false_of_avail havail), if_neg (Nat.not_lt.mpr (Nat.le_of_lt hsupported.1)),
    controlBits_eq hsupported.1]
  change ((if controlBitsOf (sensorType2AndroidSensor sensor) = 0xFFFF then _ else _ :
    Drv Status)).run pdev = _
  rw [if_neg hsupported.2]
  rfl

/-- A sensor without an entry in the table is refused before anything is recorded. -/
theorem run_enableDmpSensor_unsupported (havail : pdev.dmpFirmwareAvailable = true)
    (hsupported : ¬ Supported (sensorType2AndroidSensor sensor)) :
    (enableDmpSensor sensor state).run pdev = pure (Status.sensorNotSupported, pdev) := by
  change ((if pdev.dmpFirmwareAvailable = false then _ else _ : Drv Status)).run pdev = _
  rw [if_neg (not_eq_false_of_avail havail)]
  by_cases hlt : sensorType2AndroidSensor sensor < androidSensorNumMax
  · rw [if_neg (Nat.not_le.mpr hlt), controlBits_eq hlt]
    change ((if controlBitsOf (sensorType2AndroidSensor sensor) = 0xFFFF then _ else _ :
      Drv Status)).run pdev = _
    rw [if_pos (controlBitsOf_eq_of_unsupported hsupported hlt)]
    rfl
  · rw [if_pos (Nat.not_lt.mp hlt)]
    rfl

/-- The interrupt of the sensor whose number is the size of the table is not refused. -/
theorem run_enableDmpSensorInt_unsupported (havail : pdev.dmpFirmwareAvailable = true)
    (hsupported : ¬ Supported (sensorType2AndroidSensor sensor))
    (hpast : sensorType2AndroidSensor sensor ≠ androidSensorNumMax) :
    (enableDmpSensorInt sensor state).run pdev = pure (Status.sensorNotSupported, pdev) := by
  change ((if pdev.dmpFirmwareAvailable = false then _ else _ : Drv Status)).run pdev = _
  rw [if_neg (not_eq_false_of_avail havail)]
  by_cases hlt : sensorType2AndroidSensor sensor < androidSensorNumMax
  -- the check is with `>` here, where `enable_dmp_sensor` has `>=`
  · rw [if_neg (Nat.not_lt.mpr (Nat.le_of_lt hlt)), controlBits_eq hlt]
    change ((if controlBitsOf (sensorType2AndroidSensor sensor) = 0xFFFF then _ else _ :
      Drv Status)).run pdev = _
    rw [if_pos (controlBitsOf_eq_of_unsupported hsupported hlt)]
    rfl
  · rw [if_pos (by omega)]
    rfl

end

/-! ## Calls -/

inductive SensorCall
  | enable (sensor : BitVec 32) (state : Int)
  | enableInt (sensor : BitVec 32) (state : Int)

namespace SensorCall

def run : SensorCall → Drv Status
  | enable sensor state => enableDmpSensor sensor state
  | enableInt sensor state => enableDmpSensorInt sensor state

def androidSensor : SensorCall → ℕ
  | enable sensor _ | enableInt sensor _ => sensorType2AndroidSensor sensor

def state : SensorCall → Int
  | enable _ state | enableInt _ state => state

/-- What the call records once it has accepted the sensor. -/
def record (call : SensorCall) (pdev : Device) : Device :=
  match call with
  | enable sensor state => pdev.switchSensor (sensorType2AndroidSensor sensor) state
  | enableInt sensor state => pdev.switchSensorInt (sensorType2AndroidSensor sensor) state

/-- What follows. -/
def reconfigure : SensorCall → Drv Status
  | enable _ _ => reconfigureOutputs
  | enableInt _ _ => reconfigureInterrupts

/-- The set that the call switches its sensor in. -/
def switches (call : SensorCall) (pdev : Device) : Finset ℕ :=
  match call with
  | enable _ _ => pdev.enabled
  | enableInt _ _ => pdev.enabledIntr

/-- The sensor's number passes the check of the function without being past the table. -/
def WithinTable : SensorCall → Prop
  | enable _ _ => True
  | enableInt sensor _ => sensorType2AndroidSensor sensor ≠ androidSensorNumMax

variable {call : SensorCall} {pdev : Device}

theorem run_supported (havail : pdev.dmpFirmwareAvailable = true)
    (hsupported : Supported call.androidSensor) :
    call.run.run pdev = call.reconfigure.run (call.record pdev) := by
  cases call with
  | enable sensor state => exact run_enableDmpSensor havail hsupported
  | enableInt sensor state => exact run_enableDmpSensorInt havail hsupported

theorem run_unsupported (havail : pdev.dmpFirmwareAvailable = true)
    (hsupported : ¬ Supported call.androidSensor) (hwithin : call.WithinTable) :
    call.run.run pdev = pure (Status.sensorNotSupported, pdev) := by
  cases call with
  | enable sensor state => exact run_enableDmpSensor_unsupported havail hsupported
  | enableInt sensor state => exact run_enableDmpSensorInt_unsupported havail hsupported hwithin

theorem avail_record (call : SensorCall) (pdev : Device) :
    (call.record pdev).dmpFirmwareAvailable = pdev.dmpFirmwareAvailable := by
  cases call with
  | enable sensor state =>
    show (pdev.switchSensor _ state).dmpFirmwareAvailable = _
    unfold Device.switchSensor
    split <;> rfl
  | enableInt sensor state =>
    show (pdev.switchSensorInt _ state).dmpFirmwareAvailable = _
    unfold Device.switchSensorInt
    split <;> rfl

/-- The sensor is on or off already, as the call asks. -/
def AsRequested (call : SensorCall) (pdev : Device) : Prop :=
  call.androidSensor ∈ call.switches pdev ↔ call.state ≠ 0

theorem switches_record (pdev : Device) (hlt : call.androidSensor < 64) :
    call.switches (call.record pdev) =
      switched (call.switches pdev) call.androidSensor call.state := by
  cases call with
  | enable sensor state => exact enabled_switchSensor pdev hlt state
  | enableInt sensor state => exact enabledIntr_switchSensorInt pdev hlt state

/-- Recording one sensor does not switch another. -/
theorem mem_record_of_ne (hlt : call.androidSensor < 64) {a : ℕ} (ha : call.androidSensor ≠ a) :
    (a ∈ (call.record pdev).enabled ↔ a ∈ pdev.enabled) ∧
      (a ∈ (call.record pdev).enabledIntr ↔ a ∈ pdev.enabledIntr) := by
  have hswitched (E : Finset ℕ) : a ∈ switched E call.androidSensor call.state ↔ a ∈ E := by
    rw [mem_switched, if_neg (Ne.symm ha)]
  have hswitches := call.switches_record pdev hlt
  cases call with
  | enable sensor state =>
    have henabled : (record (enable sensor state) pdev).enabled = _ := hswitches
    have hintr : (record (enable sensor state) pdev).enabledIntr = pdev.enabledIntr :=
      enabledIntr_switchSensor pdev _ state
    rw [henabled, hintr]
    exact ⟨hswitched pdev.enabled, Iff.rfl⟩
  | enableInt sensor state =>
    have henabled : (record (enableInt sensor state) pdev).enabled = pdev.enabled :=
      enabled_switchSensorInt pdev _ state
    have hintr : (record (enableInt sensor state) pdev).enabledIntr = _ := hswitches
    rw [henabled, hintr]
    exact ⟨Iff.rfl, hswitched pdev.enabledIntr⟩

end SensorCall

/-- What is recorded of the sensors, and whether the DMP is there. -/
def Device.recorded (pdev : Device) : Bool × BitVec 32 × BitVec 32 × BitVec 32 × BitVec 32 :=
  (pdev.dmpFirmwareAvailable, pdev.enabledAndroid0, pdev.enabledAndroid1,
    pdev.enabledAndroidIntr0, pdev.enabledAndroidIntr1)

section
variable {pdev pdev' : Device}

theorem avail_of_recorded (h : pdev'.recorded = pdev.recorded) :
    pdev'.dmpFirmwareAvailable = pdev.dmpFirmwareAvailable := congrArg Prod.fst h

theorem enabled_of_recorded (h : pdev'.recorded = pdev.recorded) :
    pdev'.enabled = pdev.enabled := by
  simp only [Device.recorded, Prod.mk.injEq] at h
  unfold Device.enabled
  rw [h.2.1, h.2.2.1]

theorem enabledIntr_of_recorded (h : pdev'.recorded = pdev.recorded) :
    pdev'.enabledIntr = pdev.enabledIntr := by
  simp only [Device.recorded, Prod.mk.injEq] at h
  unfold Device.enabledIntr
  rw [h.2.2.2.1, h.2.2.2.2]

end

section
open Prog

variable {δ : Type} {f : Device → δ}

theorem leaves_wakeFor {p : Drv Status} (hp : Leaves f p) : Leaves f (wakeFor p) :=
  (leaves_lift _).bind fun _ => .ite (leaves_pure _) <|
    (leaves_lift _).bind fun _ => .ite (leaves_pure _) hp

/-- One control word: it is assigned, then written, and a failure ends the call. -/
theorem leaves_controlWord {assign : Device → Device} {reg value : BitVec 16} {rest : Drv Status}
    (hassign : ∀ pdev, f (assign pdev) = f pdev)
    (hbank : ∀ pdev bank, f { pdev with lastMemsBank := bank } = f pdev) (hrest : Leaves f rest) :
    Leaves f (modify assign >>= fun _ => writeMems16 reg value >>= fun result =>
      if result ≠ Status.ok then pure result else rest) :=
  (leaves_modify hassign).bind fun _ =>
    (leaves_writeMems hbank reg _).bind fun _ => .ite (leaves_pure _) hrest

/-- The control words are written, and nothing recorded is changed. -/
theorem leaves_configureOutputs (acc : Rebuild) :
    Leaves Device.recorded (configureOutputs acc) := by
  apply leaves_wakeFor
  refine leaves_controlWord (fun _ => by rfl) (fun _ _ => by rfl) ?_
  refine leaves_controlWord (fun _ => by rfl) (fun _ _ => by rfl) ?_
  refine leaves_controlWord (fun _ => by rfl) (fun _ _ => by rfl) ?_
  refine leaves_controlWord (fun _ => by rfl) (fun _ _ => by rfl) ?_
  exact leaves_lift _

theorem leaves_configureInterrupts (delta : BitVec 16) :
    Leaves Device.recorded (configureInterrupts delta) := by
  apply leaves_wakeFor
  refine (leaves_modify fun _ => by rfl).bind fun _ => ?_
  exact (leaves_writeMems (fun _ _ => rfl) _ _).bind fun _ => leaves_lift _

theorem SensorCall.leaves_reconfigure (call : SensorCall) :
    Leaves Device.recorded call.reconfigure := by
  cases call with
  | enable sensor state =>
    exact leaves_get.bind fun _ => (leaves_lift _).bind fun _ => leaves_configureOutputs _
  | enableInt sensor state =>
    exact leaves_get.bind fun _ => (leaves_lift _).bind fun _ => leaves_configureInterrupts _

end

/-- A call as it went: what it returned and what it did on the bus. -/
structure SensorCalled (σ : Type) where
  call : SensorCall
  retval : Status
  trace : BusTrace σ

def sensorStep {σ : Type} (env : Env σ BusEvent BusEvent.Resp) (w : Device × σ)
    (x : SensorCalled σ) (w' : Device × σ) : Prop :=
  Prog.Exec env (x.call.run.run w.1) w.2 x.trace (x.retval, w'.1) w'.2

/-- A call for a sensor that is supported records it and then leaves it recorded. -/
theorem recorded_sensorStep {σ : Type} {env : Env σ BusEvent BusEvent.Resp} {w w' : Device × σ}
    {x : SensorCalled σ} (hstep : sensorStep env w x w')
    (havail : w.1.dmpFirmwareAvailable = true) (hsupported : Supported x.call.androidSensor) :
    w'.1.recorded = (x.call.record w.1).recorded := by
  unfold sensorStep at hstep
  rw [SensorCall.run_supported havail hsupported] at hstep
  exact (x.call.leaves_reconfigure (x.call.record w.1)).exec hstep

/-- A call against a deterministic device. -/
def calledOn {σ : Type} (h : Handler σ BusEvent BusEvent.Resp) (call : SensorCall)
    (w : Device × σ) : Step (Device × σ) (SensorCalled σ) :=
  ⟨w, ⟨call, (Prog.run h (call.run.run w.1) w.2).1.1, Prog.trace h (call.run.run w.1) w.2⟩,
    ((Prog.run h (call.run.run w.1) w.2).1.2, (Prog.run h (call.run.run w.1) w.2).2)⟩

theorem sensorStep_calledOn {σ : Type} (h : Handler σ BusEvent BusEvent.Resp) (call : SensorCall)
    (w : Device × σ) :
    sensorStep h.env w (calledOn h call w).label (calledOn h call w).post :=
  Prog.exec_run_pair h (call.run.run w.1) w.2

end SimuSound.Imu
