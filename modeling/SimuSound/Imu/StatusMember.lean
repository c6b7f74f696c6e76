import SimuSound.Imu.Calls
import SimuSound.Imu.DmpVerdict
import SimuSound.Reasoning.Transition

/-!
# StatusMember — whether `status` describes the latest operation

Callers such as `imu_test` look only at the member, so a method that returns one status and leaves
another in the object makes them act on a stale one.
-/

namespace SimuSound.Imu

open Reasoning

/-! ## Methods that leave what they return in `status` -/

/-- From this object the method ends with the member equal to what it returns; `out` is the status
among the results. -/
def AgreesAt {α : Type} (out : α → Option Status) (p : Method α) (icm : Icm20948) : Prop :=
  Prog.Ends (fun r : α × Icm20948 => ∀ status ∈ out r.1, r.2.status = status) (p.run icm)

def Agrees {α : Type} (out : α → Option Status) (p : Method α) : Prop := ∀ icm, AgreesAt out p icm

section
variable {α β : Type} {out : β → Option Status}

theorem agreesAt_pure {icm : Icm20948} {b : β} :
    AgreesAt out (pure b) icm ↔ ∀ status ∈ out b, icm.status = status := Iff.rfl

/-- Only how the method ends matters. -/
theorem Agrees.bind {p : Method α} {f : α → Method β} (h : ∀ a, Agrees out (f a)) :
    Agrees out (p >>= f) := by
  intro icm
  rw [AgreesAt, StateT.run_bind, Prog.ends_bind]
  exact Prog.ends_of_forall (fun r : α × Icm20948 => h r.1 r.2) _

theorem Agrees.ite {c : Prop} [Decidable c] {p q : Method β} (hp : Agrees out p)
    (hq : Agrees out q) : Agrees out (if c then p else q) := by
  split
  · exact hp
  · exact hq

theorem agrees_report (status : Status) : Agrees some (Icm20948.report status) :=
  fun _ => agreesAt_pure.mpr fun _ h => Option.some.inj h

/-- `return status;` -/
theorem agrees_status : Agrees some (get >>= fun icm : Icm20948 => pure icm.status) :=
  fun _ => agreesAt_pure.mpr fun _ h => Option.some.inj h

/-- `status = result; ...` -/
theorem agrees_report_bind (status : Status) {f : Status → Method β}
    (h : ∀ icm : Icm20948, icm.status = status → AgreesAt out (f status) icm) :
    Agrees out (Icm20948.report status >>= f) :=
  fun icm => h { icm with status := status } rfl

end

/-! ## The methods one by one -/

theorem Agrees.map {α β : Type} {out : β → Option Status} {g : α → β} {p : Method α}
    (h : Agrees (fun a => out (g a)) p) : Agrees out (g <$> p) := by
  intro icm
  rw [AgreesAt, StateT.run_map, map_eq_pure_bind, Prog.ends_bind]
  exact h icm

/-- `status = result; if (status != ICM_20948_Stat_Ok) return status; ...` -/
theorem agrees_guard (result : Status) {q : Status → Method Status}
    (hq : ∀ (icm : Icm20948) status, icm.status = status → AgreesAt some (q status) icm) :
    Agrees some (Icm20948.report result >>= fun status =>
      if status ≠ Status.ok then pure status else q status) := by
  refine agrees_report_bind result fun icm hicm => ?_
  by_cases hret : result = Status.ok
  · rw [if_neg (not_not_intro hret)]
    exact hq icm result hicm
  · rw [if_pos hret]
    exact agreesAt_pure.mpr fun _ h => by simpa using hicm.trans (Option.some.inj h)

/-- The same when what follows does not depend on the test. -/
theorem agrees_guard_of (result : Status) {q : Status → Method Status}
    (hq : ∀ status, Agrees some (q status)) :
    Agrees some (Icm20948.report result >>= fun status =>
      if status ≠ Status.ok then pure status else q status) :=
  agrees_guard result fun icm status _ => hq status icm

/-- `status = result; return status;` with something filled in for the caller. -/
theorem agrees_reported {α : Type} (p : Method (Read α)) :
    Agrees (fun r : Read α => some r.retval) (p >>= fun r =>
      Icm20948.report r.retval >>= fun status => pure ⟨status, r.val⟩) :=
  .bind fun _ => agrees_report_bind _ fun _ hicm => agreesAt_pure.mpr fun _ h =>
    hicm.trans (Option.some.inj h)

/-- The same test on what a method called before has left in `status`. -/
theorem agrees_get_guard {q : Method Status} (hq : Agrees some q) :
    Agrees some (get >>= fun icm : Icm20948 =>
      if icm.status ≠ Status.ok then pure icm.status else q) := by
  intro icm
  change AgreesAt some (if icm.status ≠ Status.ok then pure icm.status else q) icm
  split
  · exact agreesAt_pure.mpr fun _ h => Option.some.inj h
  · exact hq icm

namespace Icm20948

theorem agrees_clearInterrupts : Agrees some clearInterrupts := by
  refine .bind fun _ => .bind fun _ => .bind fun _ => agrees_guard_of _ fun _ => ?_
  exact .bind fun _ => agrees_guard_of _ fun _ => .bind fun _ => agrees_report _

theorem agrees_cfgIntPin (field : BitField 8) (setting : Bool) :
    Agrees some (cfgIntPin field setting) :=
  .bind fun _ => .bind fun _ => agrees_guard_of _ fun _ => .bind fun _ => agrees_report _

theorem agrees_intEnableWith (change : IntEnables → IntEnables) (confirmed : IntEnables → Bool) :
    Agrees some (intEnableWith change confirmed) := by
  refine .bind fun _ => .bind fun _ => agrees_guard_of _ fun _ => .bind fun w => ?_
  refine agrees_guard _ fun icm status hicm => ?_
  split
  · exact agreesAt_pure.mpr fun _ h => by simpa using hicm.trans (Option.some.inj h)
  · exact agrees_report _ icm

theorem agrees_womThreshold (threshold : Byte) : Agrees some (womThreshold threshold) := by
  refine .bind fun _ => .bind fun _ => agrees_guard_of _ fun _ => .bind fun w => ?_
  refine agrees_guard _ fun icm status hicm => ?_
  split
  · exact agrees_report _ icm
  · exact agreesAt_pure.mpr fun _ h => by simpa using hicm.trans (Option.some.inj h)

/-- `if (retval != ICM_20948_Stat_Ok) { status = retval; return status; } ...` -/
theorem agrees_step {p : Method Status} {q : Status → Method Status}
    (hq : ∀ retval, Agrees some (q retval)) :
    Agrees some (p >>= fun retval =>
      if retval ≠ Status.ok then report retval >>= pure else q retval) := by
  refine .bind fun retval => .ite ?_ (hq retval)
  rw [bind_pure]
  exact agrees_report retval

theorem agrees_startupDefault (minimal : Bool) : Agrees some (startupDefault minimal) := by
  refine agrees_step fun _ => agrees_step fun _ => agrees_step fun _ => agrees_step fun _ => ?_
  refine .ite agrees_status ?_
  exact agrees_step fun _ => agrees_step fun _ => agrees_step fun _ => agrees_step fun _ =>
    agrees_status

theorem agrees_magWhoIAm : Agrees some magWhoIAm := by
  refine .bind fun whoiam1 => agrees_get_guard ?_
  refine .bind fun whoiam2 => agrees_get_guard ?_
  exact .ite (agrees_report _) (agrees_report _)

theorem agrees_startupMagnetometer (minimal : Bool) :
    Agrees some (startupMagnetometer minimal) := by
  refine .bind fun _ => .bind fun _ => .bind fun _ => .bind fun tries => .ite ?_ ?_
  · exact agrees_report _
  · exact .ite agrees_status (agrees_step fun _ => agrees_step fun _ => agrees_status)

end Icm20948

/-- Every method but `begin` and those that ask for the DMP leaves what it returns. -/
theorem agrees_call (build : Build) (call : Call) (hdmp : call.needsDmp = false)
    (hbegin : ∀ csPin spiFreq, call ≠ .begin csPin spiFreq) :
    Agrees id (Icm20948.call build call) := by
  cases call
  case clearInterrupts => exact .map Icm20948.agrees_clearInterrupts
  case cfgIntActiveLow | cfgIntOpenDrain | cfgIntLatch | cfgIntAnyReadToClear |
      cfgFsyncActiveLow | cfgFsyncIntMode =>
    exact .map (Icm20948.agrees_cfgIntPin _ _)
  case intEnableI2C | intEnableDmp | intEnablePll | intEnableWom | intEnableWof |
      intEnableRawDataReady | intEnableOverflowFifo | intEnableWatermarkFifo =>
    exact .map (Icm20948.agrees_intEnableWith _ _)
  case womThreshold => exact .map (Icm20948.agrees_womThreshold _)
  case startupDefault => exact .map (Icm20948.agrees_startupDefault _)
  case magWhoIAm => exact .map Icm20948.agrees_magWhoIAm
  case startupMagnetometer => exact .map (Icm20948.agrees_startupMagnetometer _)
  case begin csPin spiFreq => exact absurd rfl (hbegin csPin spiFreq)
  case dataReady | getWhoAmI | isConnected | getAgmt | i2cMasterSingleR | readMag =>
    exact .map fun icm => Prog.ends_of_forall (fun r => by simp) _
  case read | i2cControllerPeriph4Transaction | i2cMasterSLV4Transaction | getFifoCount |
      readFifo =>
    exact .map (agrees_reported _)
  all_goals first
    | exact .map (.bind fun _ => agrees_report _)
    | exact Bool.noConfusion hdmp

/-! ## Methods that may not -/

section
variable {σ α : Type} {env : Env σ BusEvent BusEvent.Resp} {icm icm' : Icm20948} {s s' : σ}
  {tr : BusTrace σ} {ret : Option Status}

theorem exec_agrees (out : α → Option Status) {p : Method α} {a : α}
    (hexec : Prog.Exec env (p.run icm) s tr (a, icm') s') (h : Agrees out p) :
    ∀ status ∈ out a, icm'.status = status := Prog.Ends.exec (h icm) hexec

theorem run_ifDmpElse (unsupported : α) (p : Method α) (icm : Icm20948) :
    (Icm20948.ifDmpElse unsupported p).run icm =
      if icm.device.dmpFirmwareAvailable then p.run icm else pure (unsupported, icm) := by
  change (ite (icm.device.dmpFirmwareAvailable = true) p (pure unsupported) : Method α).run icm = _
  split <;> rfl

/-- What is returned without touching the object. -/
theorem exec_untouched (out : α → Option Status) {a b : α} {status : Status}
    (hout : out b = some status)
    (hexec : Prog.Exec env (pure (b, icm)) s tr (a, icm') s') :
    (∀ status ∈ out a, icm'.status = status) ↔ icm.status = status := by
  obtain ⟨-, rfl, rfl, -⟩ := Prog.exec_pureM.mp hexec
  rw [hout]
  exact ⟨fun h => h _ rfl, fun h _ hst => h.trans (Option.some.inj hst)⟩

/-- A method that asks for the DMP describes itself unless the DMP is missing and `status` holds
something else than the status for that. -/
theorem ifDmpElse_agrees_iff (out : α → Option Status) {unsupported : α}
    (hunsupported : out unsupported = some Status.dmpNotSupported) {p : Method α}
    (hp : Agrees out p)
    (hexec : Prog.Exec env ((out <$> Icm20948.ifDmpElse unsupported p).run icm) s tr
      (ret, icm') s') :
    (∀ status ∈ ret, icm'.status = status) ↔
      (icm.device.dmpFirmwareAvailable = false → icm.status = Status.dmpNotSupported) := by
  obtain ⟨a, rfl, hrun⟩ := Prog.exec_map.mp hexec
  rw [run_ifDmpElse] at hrun
  cases havail : icm.device.dmpFirmwareAvailable with
  | true =>
    rw [havail, if_pos rfl] at hrun
    exact ⟨fun _ h => Bool.noConfusion h, fun _ => exec_agrees out hrun hp⟩
  | false =>
    rw [havail, if_neg Bool.false_ne_true] at hrun
    rw [exec_untouched out hunsupported hrun]
    exact ⟨fun h _ => h, fun h => h rfl⟩

end

/-! ## The status member over whole runs -/

section
variable {σ : Type}

/-- The `spiOpen` at the head of the trace answered with an error. -/
def SpiOpenFailed : BusTrace σ → Prop
  | ⟨_, .spiOpen _ _, (spiHandle : Int)⟩ :: _ => spiHandle < 0
  | _ => False

/-- When a call leaves in `status` what it returns.  A method that asks for the DMP and one whose
`spiOpen` fails return without touching the member; `initializeDMP` leaves there the status of its
last call and returns the worst of all. -/
def StatusKept (build : Build) (icm : Icm20948) (tr : BusTrace σ) : Call → Prop
  | .begin _ _ => SpiOpenFailed tr → icm.status = Status.err
  | .initializeDmp =>
    if icm.device.dmpFirmwareAvailable then
      if build.useDmp then AllOk tr ∧ (readBack tr).Fine build.dmp3Image
      else icm.status = Status.ok
    else icm.status = Status.dmpNotSupported
  | call => call.needsDmp = true → icm.device.dmpFirmwareAvailable = false →
      icm.status = Status.dmpNotSupported

variable {env : Env σ BusEvent BusEvent.Resp} {build : Build} {icm icm' : Icm20948} {s s' : σ}
  {tr : BusTrace σ} {ret : Option Status}

theorem begin_agrees_iff {csPin : Byte} {spiFreq : BitVec 32}
    (hexec : Prog.Exec env ((returned (Icm20948.begin build csPin spiFreq)).run icm) s tr
      (ret, icm') s') :
    (∀ status ∈ ret, icm'.status = status) ↔ (SpiOpenFailed tr → icm.status = Status.err) := by
  obtain ⟨a, rfl, hrun⟩ := Prog.exec_map.mp hexec
  obtain ⟨spiHandle, s₁, t₁, -, rfl, hrun⟩ := hrun
  change Prog.Exec env ((ite (spiHandle < 0) _ _ : Method Status).run
    { icm with spiHandle := spiHandle }) _ _ _ _ at hrun
  change _ ↔ (spiHandle < 0 → _)
  by_cases hneg : spiHandle < 0
  · -- `return ICM_20948_Stat_Err;` with the member as it was
    rw [if_pos hneg] at hrun
    obtain ⟨-, rfl, rfl, -⟩ := Prog.exec_pureM.mp hrun
    simp only [Option.mem_def, Option.some.injEq, forall_eq', hneg, true_implies]
  · rw [if_neg hneg] at hrun
    refine iff_of_true ?_ fun h => absurd h hneg
    exact exec_agrees some hrun (.bind fun _ => .bind fun _ => .bind fun _ => agrees_report _)

/-- With the DMP there and no failure, what has been read back decides. -/
theorem initializeDmp_agrees_iff (hbuild : build.useDmp = true)
    (havail : icm.device.dmpFirmwareAvailable = true)
    (hexec : Prog.Exec env ((returned (Icm20948.initializeDmp build)).run icm) s tr
      (ret, icm') s') (hok : AllOk tr) :
    (∀ status ∈ ret, icm'.status = status) ↔ (readBack tr).Fine build.dmp3Image := by
  obtain ⟨result, rfl, hrun⟩ := Prog.exec_map.mp hexec
  obtain ⟨hstatus, hiff⟩ := Icm20948.initializeDmp_verdict hbuild havail hrun hok
  rw [← hiff, hstatus]
  exact ⟨fun h => (h result rfl).symm, fun h _ hst => h.symm.trans (Option.some.inj hst)⟩

theorem call_agrees_iff {call : Call} (hcall : call ≠ .initializeDmp)
    (hexec : Prog.Exec env ((Icm20948.call build call).run icm) s tr (ret, icm') s') :
    (∀ status ∈ ret, icm'.status = status) ↔ StatusKept build icm tr call := by
  cases call
  case begin csPin spiFreq => exact begin_agrees_iff hexec
  case initializeDmp => exact absurd rfl hcall
  case enableDmp | loadDmpFirmware | setDmpStartAddress | enableDmpSensor | enableDmpSensorInt |
      writeDmpMems | setDmpOdrRate | setGyroSf =>
    exact (ifDmpElse_agrees_iff some rfl (.bind fun _ => agrees_report _) hexec).trans
      ⟨fun h _ => h, fun h => h rfl⟩
  case readDmpMems | readDmpDataFromFifo =>
    exact (ifDmpElse_agrees_iff (fun r : Read _ => some r.retval) rfl (agrees_reported _)
      hexec).trans ⟨fun h _ => h, fun h => h rfl⟩
  -- the methods that do not ask for the DMP assign `status` on every path
  all_goals
    refine iff_of_true ?_ fun h => Bool.noConfusion h
    exact exec_agrees id hexec (agrees_call build _ rfl fun _ _ => Call.noConfusion)

/-- `initializeDMP` makes its calls only where the DMP is there and compiled in. -/
theorem initializeDmp_kept_iff
    (hexec : Prog.Exec env ((Icm20948.call build .initializeDmp).run icm) s tr (ret, icm') s') :
    (StatusKept build icm tr .initializeDmp → ∀ status ∈ ret, icm'.status = status) ∧
      (AllOk tr → (∀ status ∈ ret, icm'.status = status) →
        StatusKept build icm tr .initializeDmp) := by
  rw [StatusKept]
  by_cases havail : icm.device.dmpFirmwareAvailable = true
  · rw [if_pos havail]
    by_cases hbuild : build.useDmp = true
    · rw [if_pos hbuild]
      exact ⟨fun h => (initializeDmp_agrees_iff hbuild havail hexec h.1).mpr h.2,
        fun hok h => ⟨hok, (initializeDmp_agrees_iff hbuild havail hexec hok).mp h⟩⟩
    · rw [if_neg hbuild]
      obtain ⟨a, rfl, hrun⟩ := Prog.exec_map.mp hexec
      rw [Icm20948.initializeDmp, Icm20948.ifDmp, run_ifDmpElse, if_pos havail, if_neg hbuild]
        at hrun
      have huntouched := exec_untouched some rfl hrun
      exact ⟨huntouched.mpr, fun _ => huntouched.mp⟩
  · rw [if_neg havail]
    obtain ⟨a, rfl, hrun⟩ := Prog.exec_map.mp hexec
    rw [Icm20948.initializeDmp, Icm20948.ifDmp, run_ifDmpElse, if_neg havail] at hrun
    have huntouched := exec_untouched some rfl hrun
    exact ⟨huntouched.mpr, fun _ => huntouched.mp⟩

/-- A call in a run: what was called, the bus accesses it made and the status it returned. -/
structure CallLabel (σ : Type) where
  call : Call
  tr : BusTrace σ
  returned : Option Status

/-- The object and the world behind the bus, before and after a call. -/
def callStep (build : Build) (env : Env σ BusEvent BusEvent.Resp) (w : Icm20948 × σ)
    (label : CallLabel σ) (w' : Icm20948 × σ) : Prop :=
  Prog.Exec env ((Icm20948.call build label.call).run w.1) w.2 label.tr (label.returned, w'.1) w'.2

/-- In every run, whatever the bus answers, `status` is what was returned after every call that meets
`StatusKept`, and after no other, leaving aside an `initializeDMP` in which an access fails. -/
theorem status_eq_returned_iff (build : Build) (env : Env σ BusEvent BusEvent.Resp)
    {w w' : Icm20948 × σ} {run : List (Step (Icm20948 × σ) (CallLabel σ))}
    (hrun : Run (callStep build env) w run w') :
    ∀ x ∈ run,
      (StatusKept build x.pre.1 x.label.tr x.label.call →
        ∀ status ∈ x.label.returned, x.post.1.status = status) ∧
      ((x.label.call = .initializeDmp → AllOk x.label.tr) →
        (∀ status ∈ x.label.returned, x.post.1.status = status) →
          StatusKept build x.pre.1 x.label.tr x.label.call) := by
  intro x hx
  have hexec := hrun.step_mem x hx
  by_cases hcall : x.label.call = .initializeDmp
  · unfold callStep at hexec
    rw [hcall] at hexec ⊢
    obtain ⟨hkept, hexact⟩ := initializeDmp_kept_iff hexec
    exact ⟨hkept, fun hok => hexact (hok rfl)⟩
  · have hiff := call_agrees_iff hcall hexec
    exact ⟨hiff.mpr, fun _ => hiff.mp⟩

end

/-! ## Two objects -/

/-- A call on a device that needs no state. -/
def callOn (build : Build) (dev : Handler Unit BusEvent BusEvent.Resp) (icm : Icm20948)
    (call : Call) : Step (Icm20948 × Unit) (CallLabel Unit) :=
  let p := (Icm20948.call build call).run icm
  { pre := (icm, ())
    label := ⟨call, Prog.trace dev p (), (Prog.run dev p ()).1.1⟩
    post := ((Prog.run dev p ()).1.2, ()) }

/-- Every register and all of the memory read zero. -/
def zeros : Handler Unit BusEvent BusEvent.Resp
  | .read _ _, s => (⟨Status.ok, fun _ => 0⟩, s)
  | .write _ _, s => (Status.ok, s)
  | .uninit _, s => (fun _ => 0xff, s)
  | .spiOpen _ _, s => ((0 : Int), s)

theorem run_callOn (build : Build) (dev : Handler Unit BusEvent BusEvent.Resp) (icm : Icm20948)
    (call : Call) :
    Run (callStep build dev.env) (icm, ()) [callOn build dev icm call]
      (callOn build dev icm call).post :=
  ⟨rfl, Prog.exec_run_pair dev _ (), rfl⟩

/-- The DMP is there, and an error is left from before. -/
def begunWithError : Icm20948 := { staticObject with
  device := Icm20948.beginDevice ⟨true, [0, 0, 0]⟩ staticObject.device, status := Status.err }

/-- `initializeDMP` with an image of three zeros. -/
def initializeZeros : Step (Icm20948 × Unit) (CallLabel Unit) :=
  callOn ⟨true, [0, 0, 0]⟩ zeros begunWithError .initializeDmp

theorem status_eq_returned_iff_zeros :
    initializeZeros.label.returned = some Status.ok ∧
      initializeZeros.post.1.status = Status.ok := by
  have hreturned : initializeZeros.label.returned = some Status.ok := by decide +kernel
  have hok : AllOk initializeZeros.label.tr := by decide +kernel
  have hfine : (readBack initializeZeros.label.tr).Fine [0, 0, 0] :=
    ⟨by decide +kernel, by decide +kernel⟩
  have hkept : StatusKept ⟨true, [0, 0, 0]⟩ begunWithError initializeZeros.label.tr
      .initializeDmp := by
    have havail : begunWithError.device.dmpFirmwareAvailable = true := rfl
    rw [StatusKept, if_pos havail, if_pos rfl]
    exact ⟨hok, hfine⟩
  have hrun := run_callOn ⟨true, [0, 0, 0]⟩ zeros begunWithError .initializeDmp
  have hall := (status_eq_returned_iff _ _ hrun initializeZeros List.mem_cons_self).1 hkept
  exact ⟨hreturned, hall Status.ok hreturned⟩

/-- No SPI device: nothing can be opened. -/
def noSpi : Handler Unit BusEvent BusEvent.Resp
  | .read _ _, s => (⟨Status.err, fun _ => 0⟩, s)
  | .write _ _, s => (Status.err, s)
  | .uninit _, s => (fun _ => 0, s)
  | .spiOpen _ _, s => ((-1 : Int), s)

def noDmp : Build := ⟨false, []⟩

/-- The one call of `begin` in `imu_test`, without an SPI device. -/
def beginWithoutSpi : Step (Icm20948 × Unit) (CallLabel Unit) where
  pre := (staticObject, ())
  label := ⟨.begin 0 1000000, [⟨(), .spiOpen 0 1000000, (-1 : Int)⟩], some Status.err⟩
  post := ({ staticObject with spiHandle := -1 }, ())

theorem run_beginWithoutSpi :
    Run (callStep noDmp noSpi.env) (staticObject, ()) [beginWithoutSpi] beginWithoutSpi.post :=
  ⟨rfl, (Prog.exec_handler noSpi _ _ _ _ _).mpr ⟨rfl, rfl⟩, rfl⟩

/-- `begin` returns an error, and the member still says that all is well. -/
theorem begin_leaves_stale_status :
    ¬ ∀ (σ : Type) (build : Build) (env : Env σ BusEvent BusEvent.Resp) (w w' : Icm20948 × σ)
      (run : List (Step (Icm20948 × σ) (CallLabel σ))), Run (callStep build env) w run w' →
        ∀ x ∈ run, ∀ status ∈ x.label.returned, x.post.1.status = status := by
  intro hall
  have hstale := hall Unit noDmp noSpi.env _ _ _ run_beginWithoutSpi beginWithoutSpi
    List.mem_cons_self Status.err rfl
  exact absurd hstale (by decide)

end SimuSound.Imu
