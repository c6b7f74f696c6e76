import SimuSound.Imu.DmpSensors
import SimuSound.Imu.I2cMaster
import SimuSound.Imu.Sensors

/-!
# Reporting — driver functions that lose no result

They return at the first failed access or combine all results with `|=`, so that a result of `Ok` is
only possible when every access succeeded.
-/

namespace SimuSound.Imu

open Reasoning

/-! ## Code with the device structure -/

/-- From every device structure, a result of `Ok` means that every access made succeeded. -/
def DrvReports (p : Drv Status) : Prop :=
  ∀ pdev, (p.run pdev).Reports Good fun r : Status × Device => r.1 = Status.ok

theorem drvReports_pure (status : Status) : DrvReports (pure status) := fun _ => trivial

theorem drvReports_lift {p : Io Status} (hp : ReportsStatus p) : DrvReports (liftM p) := by
  intro pdev
  rw [StateT.run_monadLift]
  exact hp.bind (fun _ => trivial) fun _ hbad => hbad

theorem DrvReports.ite {c : Prop} [Decidable c] {p q : Drv Status} (hp : DrvReports p)
    (hq : DrvReports q) : DrvReports (if c then p else q) := by
  split
  · exact hp
  · exact hq

theorem DrvReports.guard {p : Drv Status} {q : Status → Drv Status} (hp : DrvReports p)
    (hq : ∀ retval, DrvReports (q retval)) :
    DrvReports (p >>= fun retval => if retval ≠ Status.ok then pure retval else q retval) := by
  intro pdev
  rw [StateT.run_bind]
  refine (hp pdev).bind (fun r => ?_) fun r hbad => ?_
  · split
    · trivial
    · exact hq r.1 r.2
  · rw [if_pos hbad]
    exact hbad

/-- Steps that touch only locals and the device structure, or read what the stack held. -/
theorem DrvReports.afterGet {q : Device → Drv Status} (hq : ∀ pdev, DrvReports (q pdev)) :
    DrvReports (get >>= q) := fun pdev => hq pdev pdev

theorem DrvReports.afterModify {f : Device → Device} {q : PUnit → Drv Status}
    (hq : DrvReports (q ⟨⟩)) : DrvReports (modify f >>= q) := fun pdev => hq (f pdev)

theorem DrvReports.afterSilent {α : Type} {p : Io α} {q : α → Drv Status}
    (hp : p.Uses fun e => ∀ r, Good e r) (hq : ∀ a, DrvReports (q a)) :
    DrvReports (liftM p >>= q) := by
  intro pdev
  rw [StateT.run_bind, StateT.run_monadLift, bind_assoc]
  refine (hp.reports fun _ => True).bind (fun a => ?_) fun _ h => absurd trivial h
  exact hq a pdev

/-- From every device structure, good answers lead to `Ok`. -/
def DrvSucceeds (p : Drv Status) : Prop :=
  ∀ pdev, (p.run pdev).Succeeds Good fun r : Status × Device => r.1 = Status.ok

theorem drvSucceeds_lift {p : Io Status} (hp : SucceedsOk p) : DrvSucceeds (liftM p) := by
  intro pdev
  rw [StateT.run_monadLift]
  exact hp.bind fun _ hok => hok

theorem DrvSucceeds.guard {p : Drv Status} {q : Status → Drv Status} (hp : DrvSucceeds p)
    (hq : DrvSucceeds (q Status.ok)) :
    DrvSucceeds (p >>= fun retval => if retval ≠ Status.ok then pure retval else q retval) := by
  intro pdev
  rw [StateT.run_bind]
  refine (hp pdev).bind fun r hok => ?_
  rw [hok, if_neg (not_not_intro rfl)]
  exact hq r.2

/-- Such code returns `Ok` exactly if every access succeeded. -/
theorem drv_ok_iff {σ : Type} {env : Env σ BusEvent BusEvent.Resp} {p : Drv Status}
    {pdev pdev' : Device} {s s' : σ} {tr : BusTrace σ} {retval : Status} (hreports : DrvReports p)
    (hsucceeds : DrvSucceeds p) (hexec : Prog.Exec env (p.run pdev) s tr (retval, pdev') s') :
    retval = Status.ok ↔ AllOk tr :=
  ⟨(hreports pdev).exec hexec, (hsucceeds pdev).exec hexec⟩

/-! ## The functions one by one -/

theorem reports_writeMemsLoop (fuel : Nat) (reg : BitVec 16) (data : List Byte) :
    ReportsStatus (writeMemsLoop fuel reg data) := by
  induction fuel generalizing reg data with
  | zero => trivial
  | succ fuel ih =>
    cases data with
    | nil => trivial
    | cons b data =>
      exact .guard (reports_writeByte _ _) (.guard (reports_executeW _ _) (ih _ _))

theorem succeeds_writeMemsLoop (fuel : Nat) (reg : BitVec 16) (data : List Byte) :
    SucceedsOk (writeMemsLoop fuel reg data) := by
  induction fuel generalizing reg data with
  | zero => rfl
  | succ fuel ih =>
    cases data with
    | nil => rfl
    | cons b data =>
      exact .guard (succeeds_writeByte _ _) (.guard (succeeds_executeW _ _) (ih _ _))

theorem drvReports_selectMemsBank (reg : BitVec 16) : DrvReports (selectMemsBank reg) :=
  .afterGet fun _ => .ite (.afterModify (drvReports_lift (reports_writeByte _ _)))
    (drvReports_pure _)

theorem drvSucceeds_selectMemsBank (reg : BitVec 16) : DrvSucceeds (selectMemsBank reg) := by
  intro pdev
  change Prog.Succeeds Good _ ((ite (hiByte reg ≠ pdev.lastMemsBank) _ _ : Drv Status).run pdev)
  split
  · exact drvSucceeds_lift (succeeds_writeByte _ _) { pdev with lastMemsBank := hiByte reg }
  · rfl

theorem drvReports_writeMems (reg : BitVec 16) (data : Option (List Byte)) :
    DrvReports (writeMems reg data) := by
  cases data with
  | none => exact drvReports_pure _
  | some data =>
    exact .guard (drvReports_lift trivial) fun _ => .guard (drvReports_selectMemsBank reg)
      fun _ => drvReports_lift (reports_writeMemsLoop _ _ _)

theorem drvSucceeds_writeMems (reg : BitVec 16) (data : List Byte) :
    DrvSucceeds (writeMems reg (some data)) :=
  .guard (drvSucceeds_lift rfl) <| .guard (drvSucceeds_selectMemsBank reg) <|
    drvSucceeds_lift (succeeds_writeMemsLoop _ _ _)

theorem silent_controlBits (index : Nat) : (controlBits index).Uses fun e => ∀ r, Good e r := by
  unfold controlBits
  split
  · trivial
  · exact ⟨fun _ => trivial, fun _ => trivial⟩

theorem silent_rebuildDelta (enabled0 enabled1 : BitVec 32) (delta : BitVec 16) (i : Nat) :
    (rebuildDelta enabled0 enabled1 delta i).Uses fun e => ∀ r, Good e r := by
  have hrest (bits0 : BitVec 16) := Prog.Uses.ite (c := anyBit enabled1 (sensorBit i))
    ((silent_controlBits (i + 32)).bind fun bits1 => Prog.uses_pure _ (delta ||| bits0 ||| bits1))
    (Prog.uses_pure _ (delta ||| bits0 ||| 0))
  exact .ite ((silent_controlBits i).bind hrest) (hrest 0)

theorem silent_rebuildStep (enabled0 enabled1 : BitVec 32) (acc : Rebuild) (i : Nat) :
    (rebuildStep enabled0 enabled1 acc i).Uses fun e => ∀ r, Good e r :=
  (silent_rebuildDelta _ _ _ _).bind fun _ => Prog.uses_pure _ _

theorem silent_rebuild (enabled0 enabled1 : BitVec 32) :
    (rebuild enabled0 enabled1).Uses fun e => ∀ r, Good e r :=
  Prog.Uses.foldlM (silent_rebuildStep enabled0 enabled1) _ _

theorem silent_rebuildIntr (enabled0 enabled1 : BitVec 32) :
    (rebuildIntr enabled0 enabled1).Uses fun e => ∀ r, Good e r :=
  Prog.Uses.foldlM (silent_rebuildDelta enabled0 enabled1) _ _

theorem drvReports_enableDmpSensor (sensor : BitVec 32) (state : Int) :
    DrvReports (enableDmpSensor sensor state) := by
  have hpwr (p : Io Status) (hp : ReportsStatus p) : DrvReports (liftM p) := drvReports_lift hp
  refine .afterGet fun _ => .ite (drvReports_pure _) (.ite (drvReports_pure _) ?_)
  refine .afterSilent (silent_controlBits _) fun _ => .ite (drvReports_pure _) ?_
  refine .afterModify (.afterGet fun _ => .afterSilent (silent_rebuild _ _) fun _ => ?_)
  refine .guard (hpwr _ (reports_updateReg _ _ _)) fun _ => ?_
  refine .guard (hpwr _ (reports_updateReg _ _ _)) fun _ => .afterModify ?_
  refine .guard (drvReports_writeMems _ _) fun _ => .afterModify ?_
  refine .guard (drvReports_writeMems _ _) fun _ => .afterModify ?_
  refine .guard (drvReports_writeMems _ _) fun _ => .afterModify ?_
  exact .guard (drvReports_writeMems _ _) fun _ => hpwr _ (reports_updateReg _ _ _)

theorem reports_forAccGyr (sensors : Sensors) {acc gyr : Io Status} (hacc : ReportsStatus acc)
    (hgyr : ReportsStatus gyr) : ReportsStatus (forAccGyr sensors acc gyr) := by
  have hblock (mask : Sensors) {p : Io Status} (hp : ReportsStatus p) :
      ReportsStatus (sensors.block mask p) := by
    unfold Sensors.block
    split
    · exact hp
    · trivial
  have hresult (retval retval' : Status)
      (hok : (if sensors.has (internalAcc ||| internalGyr) then retval ||| retval'
        else Status.sensorNotSupported) = Status.ok) :
      retval = Status.ok ∧ retval' = Status.ok := by
    split at hok
    · exact (Status.or_eq_ok _ _).mp hok
    · exact absurd hok (by decide)
  rw [forAccGyr_eq]
  refine (hblock _ hacc).bind (fun retval => ?_) fun retval hbad => ?_
  · exact (hblock _ hgyr).orInto fun retval' hok => (hresult retval retval' hok).2
  · rw [Prog.ends_bind]
    exact Prog.ends_of_forall (fun retval' hok => hbad (hresult retval retval' hok).1) _

theorem reports_setFullScale (sensors : Sensors) (fss : Fss) :
    ReportsStatus (setFullScale sensors fss) :=
  reports_forAccGyr sensors (reports_updateRegOr _ _ _) (reports_updateRegOr _ _ _)

theorem reports_i2cMasterEnable (enable : Bool) : ReportsStatus (i2cMasterEnable enable) :=
  .guard (reports_updateReg _ _ _) <| .guard (reports_updateReg _ _ _) (reports_updateReg _ _ _)

theorem reports_i2cControllerConfigurePeripheral (peripheral : Byte) (c : PeriphConfig) :
    ReportsStatus (i2cControllerConfigurePeripheral peripheral c) := by
  have hctrl (regs : PeriphRegs) : ReportsStatus (do
      let retval ← writeByte regs.periphRegReg c.reg
      if retval ≠ Status.ok then return retval
      let ctrl ← uninitByte
      writeByte regs.periphCtrlReg (c.ctrl ctrl)) :=
    .guard (reports_writeByte _ _) (.garbage fun _ => reports_writeByte _ _)
  unfold i2cControllerConfigurePeripheral
  split
  · trivial
  · rename_i regs _
    refine .garbage fun address => .guard (reports_writeByte _ _) ?_
    by_cases hrw : c.rw = true
    · rw [if_pos hrw]
      exact hctrl regs
    · rw [if_neg hrw]
      exact .guard (reports_writeByte _ _) (hctrl regs)

theorem reports_getAgmt (pagmt : Option Agmt) :
    (getAgmt pagmt).Reports Good fun r => r.retval = Status.ok := by
  cases pagmt with
  | none => trivial
  | some agmt =>
    -- every result is one operand of the final `|`, whatever is read after it
    refine fun _ => ⟨fun _ => ?_, fun h => absurd trivial h⟩
    refine fun raw => ⟨fun _ => ?_, fun hraw _ acfg _ gcfg1 _ acfg2 hok => hraw ?_⟩
    · refine fun _ => ⟨fun _ => ?_, fun h => absurd trivial h⟩
      refine fun acfg => ⟨fun _ => ?_, fun hacfg _ gcfg1 _ acfg2 hok => hacfg ?_⟩
      · refine fun _ => ⟨fun _ => ?_, fun h => absurd trivial h⟩
        refine fun gcfg1 => ⟨fun _ => ?_, fun hgcfg1 _ acfg2 hok => hgcfg1 ?_⟩
        · refine fun _ => ⟨fun _ => ?_, fun h => absurd trivial h⟩
          refine fun acfg2 => ⟨fun _ => trivial, fun hacfg2 hok => hacfg2 ?_⟩
          exact ((Status.or_eq_ok _ _).mp hok).2
        · simp only [Status.or_eq_ok] at hok
          exact hok.1.2
      · simp only [Status.or_eq_ok] at hok
        exact hok.1.1.1.2
    · simp only [Status.or_eq_ok] at hok
      exact hok.1.1.1.1.1.2

end SimuSound.Imu
