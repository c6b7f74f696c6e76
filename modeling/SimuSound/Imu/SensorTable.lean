import SimuSound.Imu.SensorSets
import SimuSound.Imu.StatusSoundness

/-!
# SensorTable — indices into the table of control bits

The rebuilding loops read the table at every sensor that is recorded, so that their indices are in
bounds as long as only supported sensors get recorded.  A read past the table shows in the model as
two bytes that nobody has initialised.
-/

namespace SimuSound.Imu

open Reasoning

/-- The event is no read past the table. -/
def NotPastTable (e : BusEvent) : Prop := e ≠ .uninit 2

instance : DecidablePred NotPastTable := fun e =>
  match e with
  | .read _ _ | .write _ _ | .spiOpen _ _ => .isTrue nofun
  | .uninit len =>
    if h : len = 2 then .isFalse fun hne => hne (congrArg BusEvent.uninit h)
    else .isTrue fun heq => h (BusEvent.uninit.inj heq)

/-- Every sensor recorded has an entry in the table, and not the one for unsupported sensors. -/
structure OnlySupported (pdev : Device) : Prop where
  enabled : ∀ i ∈ pdev.enabled, Supported i
  enabledIntr : ∀ i ∈ pdev.enabledIntr, Supported i

/-- The DMP is there, and only supported sensors are recorded. -/
structure TableSafe (pdev : Device) : Prop extends OnlySupported pdev where
  avail : pdev.dmpFirmwareAvailable = true

/-- The call read the table within its bounds, and left only supported sensors recorded. -/
def Safe {σ : Type} (x : Step (Device × σ) (SensorCalled σ)) : Prop :=
  (∀ o ∈ x.label.trace, NotPastTable o.event) ∧ OnlySupported x.post.1

/-! ## What is read -/

section
open Prog

theorem notPast_updateReg (bank reg : Byte) (assign : Byte → Byte) :
    (updateReg bank reg assign).Uses NotPastTable := by
  have hgarbage : uninitByte.Uses NotPastTable := ⟨by decide, fun _ => trivial⟩
  refine hgarbage.bind fun garbage => uses_guard trivial fun _ => ?_
  exact uses_guardRead ⟨nofun, fun _ => trivial⟩ fun r => ⟨nofun, fun _ => trivial⟩

theorem notPast_powerMode (assign : Byte → Byte) :
    UsesFrom NotPastTable (liftM (updateReg 0 agb0RegPwrMgmt1 assign) : Drv Status) :=
  usesFrom_lift (notPast_updateReg _ _ _)

theorem notPast_wakeFor {p : Drv Status} (hp : UsesFrom NotPastTable p) :
    UsesFrom NotPastTable (wakeFor p) :=
  (notPast_powerMode _).bind fun _ => .ite (usesFrom_pure _) <|
    (notPast_powerMode _).bind fun _ => .ite (usesFrom_pure _) hp

theorem notPast_writeMems16 (reg value : BitVec 16) :
    UsesFrom NotPastTable (writeMems16 reg value) :=
  uses_writeMems (fun _ => nofun) (fun _ => nofun) (fun _ => nofun) reg _

theorem notPast_configureOutputs (acc : Rebuild) :
    UsesFrom NotPastTable (configureOutputs acc) := by
  apply notPast_wakeFor
  refine (usesFrom_modify _).bind fun _ => ?_
  refine (notPast_writeMems16 _ _).bind fun _ => .ite (usesFrom_pure _) ?_
  refine (usesFrom_modify _).bind fun _ => ?_
  refine (notPast_writeMems16 _ _).bind fun _ => .ite (usesFrom_pure _) ?_
  refine (usesFrom_modify _).bind fun _ => ?_
  refine (notPast_writeMems16 _ _).bind fun _ => .ite (usesFrom_pure _) ?_
  refine (usesFrom_modify _).bind fun _ => ?_
  exact (notPast_writeMems16 _ _).bind fun _ => .ite (usesFrom_pure _) (notPast_powerMode _)

theorem notPast_configureInterrupts (delta : BitVec 16) :
    UsesFrom NotPastTable (configureInterrupts delta) := by
  apply notPast_wakeFor
  refine (usesFrom_modify _).bind fun _ => ?_
  exact (notPast_writeMems16 _ _).bind fun _ => notPast_powerMode _

end

theorem InTable.of_supported {E : Finset ℕ} (h : ∀ i ∈ E, Supported i) : InTable E :=
  fun i hi => (h i hi).1

theorem supported_switched {E : Finset ℕ} (h : ∀ i ∈ E, Supported i) {a : ℕ} (ha : Supported a)
    (state : Int) : ∀ i ∈ switched E a state, Supported i := by
  intro i hi
  rw [mem_switched] at hi
  split at hi
  · rename_i heq
    rwa [heq]
  · exact h i hi

section
variable {σ : Type} {env : Env σ BusEvent BusEvent.Resp} {w w' : Device × σ}
  {x : SensorCalled σ} {pdev : Device}

theorem OnlySupported.record (h : OnlySupported pdev) {call : SensorCall}
    (hsupported : Supported call.androidSensor) : OnlySupported (call.record pdev) := by
  have hswitches := call.switches_record pdev hsupported.lt
  cases call with
  | enable sensor state =>
    constructor
    · rw [show (SensorCall.record (.enable sensor state) pdev).enabled = _ from hswitches]
      exact supported_switched h.enabled hsupported state
    · rw [show (SensorCall.record (.enable sensor state) pdev).enabledIntr = pdev.enabledIntr from
        enabledIntr_switchSensor pdev _ state]
      exact h.enabledIntr
  | enableInt sensor state =>
    constructor
    · rw [show (SensorCall.record (.enableInt sensor state) pdev).enabled = pdev.enabled from
        enabled_switchSensorInt pdev _ state]
      exact h.enabled
    · rw [show (SensorCall.record (.enableInt sensor state) pdev).enabledIntr = _ from
        hswitches]
      exact supported_switched h.enabledIntr hsupported state

/-- Rebuilding from supported sensors stays within the table. -/
theorem notPast_reconfigure (call : SensorCall) (h : OnlySupported pdev) :
    (call.reconfigure.run pdev).Uses NotPastTable := by
  cases call with
  | enable sensor state =>
    show (reconfigureOutputs.run pdev).Uses NotPastTable
    rw [run_reconfigureOutputs (.of_supported h.enabled)]
    exact notPast_configureOutputs _ pdev
  | enableInt sensor state =>
    show (reconfigureInterrupts.run pdev).Uses NotPastTable
    rw [run_reconfigureInterrupts (.of_supported h.enabledIntr)]
    exact notPast_configureInterrupts _ pdev

/-- The step lemma: a call within the table is safe. -/
theorem tableSafe_sensorStep (hstep : sensorStep env w x w') (hsafe : TableSafe w.1)
    (hwithin : x.call.WithinTable) :
    TableSafe w'.1 ∧ ∀ o ∈ x.trace, NotPastTable o.event := by
  by_cases hsupported : Supported x.call.androidSensor
  · have hrecorded := recorded_sensorStep hstep hsafe.avail hsupported
    have honly := hsafe.toOnlySupported.record hsupported
    unfold sensorStep at hstep
    rw [SensorCall.run_supported hsafe.avail hsupported] at hstep
    refine ⟨⟨⟨?_, ?_⟩, ?_⟩, (notPast_reconfigure x.call honly).exec hstep⟩
    · rw [enabled_of_recorded hrecorded]
      exact honly.enabled
    · rw [enabledIntr_of_recorded hrecorded]
      exact honly.enabledIntr
    · rw [avail_of_recorded hrecorded, x.call.avail_record]
      exact hsafe.avail
  · unfold sensorStep at hstep
    rw [SensorCall.run_unsupported hsafe.avail hsupported hwithin] at hstep
    obtain ⟨htrace, hpair, -⟩ := hstep
    obtain ⟨-, hpdev⟩ := Prod.mk.inj hpair
    rw [hpdev, htrace]
    exact ⟨hsafe, List.forall_mem_nil _⟩

/-- A sensor whose number is the size of the table is looked up past its end. -/
theorem past_sensorStep (hstep : sensorStep env w x w')
    (havail : w.1.dmpFirmwareAvailable = true) (hpast : ¬ x.call.WithinTable) :
    ∃ o ∈ x.trace, ¬ NotPastTable o.event := by
  unfold sensorStep at hstep
  cases hcall : x.call with
  | enable sensor state =>
    rw [hcall] at hpast
    exact absurd trivial hpast
  | enableInt sensor state =>
    rw [hcall] at hstep hpast
    have hnum : sensorType2AndroidSensor sensor = androidSensorNumMax := not_not.mp hpast
    change Prog.Exec env ((if w.1.dmpFirmwareAvailable = false then _ else _ : Drv Status).run _)
      _ _ _ _ at hstep
    rw [if_neg (not_eq_false_of_avail havail), hnum, if_neg (Nat.lt_irrefl _)] at hstep
    -- `inv_androidSensor_to_control_bits[44]`
    obtain ⟨garbage, s₁, t₁, -, htrace, -⟩ := hstep
    exact ⟨⟨w.2, .uninit 2, garbage⟩, by rw [htrace]; exact List.mem_cons_self, fun h => h rfl⟩

/-- Starting with nothing recorded, every index into the table is in bounds and only supported
sensors are ever recorded, exactly if no interrupt is asked for with a sensor whose number is the
size of the table. -/
theorem table_indexed_in_bounds_iff {tr : List (Step (Device × σ) (SensorCalled σ))}
    (hrun : Run (sensorStep env) w tr w') (havail : w.1.dmpFirmwareAvailable = true)
    (hempty : w.1.enabled = ∅) (hemptyIntr : w.1.enabledIntr = ∅) :
    (∀ x ∈ tr, Safe x) ↔ ∀ x ∈ tr, x.label.call.WithinTable := by
  have hinit : TableSafe w.1 := by
    refine ⟨⟨?_, ?_⟩, havail⟩
    · rw [hempty]
      exact fun i hi => absurd hi (Finset.notMem_empty i)
    · rw [hemptyIntr]
      exact fun i hi => absurd hi (Finset.notMem_empty i)
  constructor
  · intro hsafe
    -- up to the first call that is not within the table, the states are safe
    have hwithin (x : Step (Device × σ) (SensorCalled σ)) (hx : x ∈ tr) (hpre : TableSafe x.pre.1)
        (hstep : sensorStep env x.pre x.label x.post) : x.label.call.WithinTable := by
      by_contra hpast
      obtain ⟨o, ho, hbad⟩ := past_sensorStep hstep hpre.avail hpast
      exact hbad ((hsafe x hx).1 o ho)
    have hinv := @Run.invariant _ _ _ (fun w => TableSafe w.1) _ _ _ hrun hinit
      fun x hx hpre hstep =>
        (tableSafe_sensorStep hstep hpre (hwithin x hx hpre hstep)).1
    exact fun x hx => hwithin x hx (hinv.2 x hx).1 (hrun.step_mem x hx)
  · intro hwithin x hx
    have hinv := @Run.invariant _ _ _ (fun w => TableSafe w.1) _ _ _ hrun hinit
      fun x hx hpre hstep =>
        (tableSafe_sensorStep hstep hpre (hwithin x hx)).1
    have hstep := tableSafe_sensorStep (hrun.step_mem x hx) (hinv.2 x hx).1 (hwithin x hx)
    exact ⟨hstep.2, hstep.1.toOnlySupported⟩

end

/-- A sensor is switched on, and then the interrupt of one that is not supported is asked for. -/
def accelOn : Step (Device × Unit) (SensorCalled Unit) :=
  calledOn noMemStart (.enable 0 1) (dmpDevice, ())

def activityIntAfterAccel : Step (Device × Unit) (SensorCalled Unit) :=
  calledOn noMemStart (.enableInt 6 1) accelOn.post

theorem table_indexed_in_bounds_iff_accel : Safe accelOn ∧ Safe activityIntAfterAccel := by
  have hrun : Run (sensorStep noMemStart.env) (dmpDevice, ()) [accelOn, activityIntAfterAccel] _ :=
    ⟨rfl, sensorStep_calledOn noMemStart _ _, rfl, sensorStep_calledOn noMemStart _ _, rfl⟩
  have hwithin : ∀ x ∈ [accelOn, activityIntAfterAccel], x.label.call.WithinTable := by
    simp only [List.forall_mem_cons]
    exact ⟨trivial, fun h => absurd h (by decide), List.forall_mem_nil _⟩
  have hsafe := (table_indexed_in_bounds_iff hrun rfl sensorsIn_zero sensorsIn_zero).mpr hwithin
  simpa only [List.forall_mem_cons, List.not_mem_nil, IsEmpty.forall_iff, implies_true,
    and_true] using hsafe

/-- The interrupt of a sensor that has no Android number of its own is switched on: 20 is
`INV_ICM20948_SENSOR_RAW_MAGNETOMETER`, which the conversion does not list. -/
theorem table_read_past_its_end :
    ¬ ∀ (σ : Type) (env : Env σ BusEvent BusEvent.Resp) (w w' : Device × σ)
      (tr : List (Step (Device × σ) (SensorCalled σ))), Run (sensorStep env) w tr w' →
        w.1.dmpFirmwareAvailable = true → w.1.enabled = ∅ → w.1.enabledIntr = ∅ →
          ∀ x ∈ tr, Safe x := by
  intro hall
  have hsafe := hall Unit noMemStart.env (dmpDevice, ()) _
    [calledOn noMemStart (.enableInt 20 1) (dmpDevice, ())]
    ⟨rfl, sensorStep_calledOn noMemStart _ _, rfl⟩ rfl sensorsIn_zero sensorsIn_zero _
    List.mem_cons_self
  have hpast : ¬ ∀ o ∈ (calledOn noMemStart (.enableInt 20 1) (dmpDevice, ())).label.trace,
      NotPastTable o.event := by decide
  exact hpast hsafe.1

end SimuSound.Imu
