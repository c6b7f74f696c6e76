import SimuSound.Imu.Object
import SimuSound.Imu.RegisterFile
import SimuSound.Imu.Reporting

/-!
# Bringup — what `startupDefault(false)` leaves in the device

The device holds arbitrary registers and takes on other arbitrary ones when it is reset; any access
may fail, and a failed one may do anything.
-/

namespace SimuSound.Imu

open Reasoning

/-! ## The device -/

/-- A write that sets `DEVICE_RESET`. -/
def requestsReset : BusEvent → Prop
  | .write reg data => isPort reg = false ∧ ∃ i : Fin data.length,
      addr reg + BitVec.ofNat 7 i = addr agb0RegPwrMgmt1 ∧ PwrMgmt1.deviceReset.get (data.get i) ≠ 0
  | .read _ _ | .uninit _ | .spiOpen _ _ => False

instance : (e : BusEvent) → Decidable (requestsReset e)
  | .write _ _ => inferInstanceAs (Decidable (_ ∧ _))
  | .read _ _ | .uninit _ | .spiOpen _ _ => .isFalse id

/-- A chip whose registers are `reset` after a reset.  Nothing is known about an access that
fails. -/
def chip (reset : RegFile) : Env RegFile BusEvent BusEvent.Resp := fun regs e r regs' =>
  Good e r → if requestsReset e then regs' = reset else Access regs e r regs'

theorem stores_chip (reset : RegFile) : Stores (chip reset) (¬ requestsReset ·) := by
  intro regs e r regs' hchip hgood hplain
  have haccess := hchip hgood
  rwa [if_neg hplain] at haccess

theorem requestsReset_writeByte (reg b : Byte) (hport : isPort reg = false) :
    requestsReset (.write reg [b]) ↔
      addr reg = addr agb0RegPwrMgmt1 ∧ PwrMgmt1.deviceReset.get b ≠ 0 := by
  constructor
  · rintro ⟨-, ⟨i, hi⟩, haddr, hbit⟩
    obtain rfl : i = 0 := Nat.lt_one_iff.mp hi
    exact ⟨(BitVec.add_zero _).symm.trans haddr, hbit⟩
  · rintro ⟨haddr, hbit⟩
    exact ⟨hport, ⟨0, Nat.zero_lt_one⟩, (BitVec.add_zero _).trans haddr, hbit⟩

/-- `WHO_AM_I` was read, and the answer was `id`. -/
def ReadsWhoAmI {σ : Type} (tr : BusTrace σ) (id : Byte) : Prop :=
  ∃ s r, (⟨s, .read agb0RegWhoAmI 1, r⟩ : Obs σ BusEvent BusEvent.Resp) ∈ tr ∧ r.val 0 = id

/-- The device is awake, in full scale and filtered, and as the reset left it otherwise. -/
structure BroughtUp (reset regs : RegFile) : Prop where
  sleep : PwrMgmt1.sleep.get (regs.get agb0RegPwrMgmt1) = 0
  accelFsSel : AccelConfig.accelFsSel.get (regs.get agb2RegAccelConfig) = 3
  gyroFsSel : GyroConfig1.gyroFsSel.get (regs.get agb2RegGyroConfig1) = 3
  accelCycle : LpConfig.accelCycle.get (regs.get agb0RegLpConfig) = 0
  gyroCycle : LpConfig.gyroCycle.get (regs.get agb0RegLpConfig) = 0
  gyroFchoice : GyroConfig1.gyroFchoice.get (regs.get agb2RegGyroConfig1) = 0
  pwrMgmt1 : ∀ i, ¬ PwrMgmt1.sleep.Covers i →
    (regs.get agb0RegPwrMgmt1).getLsbD i = (reset.get agb0RegPwrMgmt1).getLsbD i
  accelConfig : ∀ i, ¬ AccelConfig.accelFsSel.Covers i →
    (regs.get agb2RegAccelConfig).getLsbD i = (reset.get agb2RegAccelConfig).getLsbD i
  gyroConfig1 : ∀ i, ¬ GyroConfig1.gyroFsSel.Covers i → ¬ GyroConfig1.gyroFchoice.Covers i →
    (regs.get agb2RegGyroConfig1).getLsbD i = (reset.get agb2RegGyroConfig1).getLsbD i
  lpConfig : ∀ i, ¬ LpConfig.accelCycle.Covers i → ¬ LpConfig.gyroCycle.Covers i →
    (regs.get agb0RegLpConfig).getLsbD i = (reset.get agb0RegLpConfig).getLsbD i
  elsewhere : ∀ reg, addr reg ∉ [addr agb0RegPwrMgmt1, addr agb2RegAccelConfig,
    addr agb2RegGyroConfig1, addr agb0RegLpConfig] → regs.get reg = reset.get reg

/-! ## The accesses it makes -/

/-- What follows the check of the identity. -/
def startupTail : Io Status := do
  let retval ← sleep false
  if retval ≠ Status.ok then return retval
  let retval ← setFullScale 3 ⟨gpm16, dps2000⟩
  if retval ≠ Status.ok then return retval
  let retval ← setSampleMode 3 sampleModeContinuous
  if retval ≠ Status.ok then return retval
  let retval ← setDlpfCfg 3 ⟨7, 7⟩
  if retval ≠ Status.ok then return retval
  let retval ← enableDlpf 1 false
  if retval ≠ Status.ok then return retval
  enableDlpf 2 false

/-- `startupDefault(false)` without the member `status`. -/
def startup : Io Status := do
  let retval ← swReset
  if retval ≠ Status.ok then return retval
  let retval ← checkId
  if retval ≠ Status.ok then return retval
  startupTail

/-- The method returns what the code under it does, and `status` is the same. -/
def Mirrors (m : Method Status) (p : Io Status) : Prop :=
  ∀ icm, m.run icm = p >>= fun retval => pure (retval, { icm with status := retval })

theorem Mirrors.step {p p' : Io Status} {q : Status → Method Status}
    (hq : Mirrors (q Status.ok) p') :
    Mirrors (((liftM p : Method Status) >>= fun result => Icm20948.report result) >>= fun retval =>
        if retval ≠ Status.ok then Icm20948.report retval >>= pure else q retval)
      (p >>= fun retval => if retval ≠ Status.ok then pure retval else p') := by
  intro icm
  rw [StateT.run_bind, StateT.run_bind, StateT.run_monadLift, bind_assoc, bind_assoc, bind_assoc]
  refine congrArg (p >>= ·) (funext fun retval => ?_)
  rw [pure_bind]
  change ((ite _ _ _ : Method Status).run { icm with status := retval }) = _
  by_cases hok : retval = Status.ok
  · rw [if_neg (not_not_intro hok), if_neg (not_not_intro hok), hok]
    exact hq _
  · rw [if_pos hok, if_pos hok]
    rfl

/-- The last step is followed by `return status;`. -/
theorem Mirrors.lastStep (p : Io Status) :
    Mirrors (((liftM p : Method Status) >>= fun result => Icm20948.report result) >>= fun retval =>
      if retval ≠ Status.ok then Icm20948.report retval >>= pure
      else get >>= fun icm => pure icm.status) p := by
  intro icm
  rw [StateT.run_bind, StateT.run_bind, StateT.run_monadLift, bind_assoc, bind_assoc]
  refine congrArg (p >>= ·) (funext fun retval => ?_)
  rw [pure_bind]
  change ((ite _ _ _ : Method Status).run { icm with status := retval }) = _
  by_cases hok : retval = Status.ok
  · rw [if_neg (not_not_intro hok)]
    rfl
  · rw [if_pos hok]
    rfl

theorem mirrors_startupDefault : Mirrors (Icm20948.startupDefault false) startup := by
  refine .step (.step (.step (.step ?_)))
  exact .step (.step (.step (.lastStep _)))

/-! ## When it returns `Ok` -/

theorem reports_checkId : ReportsStatus checkId := by
  refine (reports_readByte agb0RegWhoAmI 0).bind (fun r => ?_) fun r hbad => ?_
  · split
    · trivial
    · split <;> trivial
  · rw [if_pos hbad]
    exact hbad

theorem reports_setSampleMode (sensors : Sensors) (mode : BitVec 32) :
    ReportsStatus (setSampleMode sensors mode) := by
  unfold setSampleMode
  split
  · exact reports_updateReg _ _ _
  · trivial

theorem reports_startup : ReportsStatus startup := by
  refine .guard (reports_updateReg _ _ _) (.guard reports_checkId ?_)
  refine .guard (reports_updateReg _ _ _) (.guard (reports_setFullScale _ _) ?_)
  refine .guard (reports_setSampleMode _ _) (.guard ?_ (.guard ?_ ?_))
  all_goals exact reports_forAccGyr _ (reports_updateRegOr _ _ _) (reports_updateRegOr _ _ _)

theorem succeeds_startupTail : SucceedsOk startupTail := by
  have hacc (sensors : Sensors) (hsensors : sensors.has (internalAcc ||| internalGyr))
      (assign assign' : Byte → Byte) : SucceedsOk (forAccGyr sensors
        (updateRegOr 2 agb2RegAccelConfig assign) (updateRegOr 2 agb2RegGyroConfig1 assign')) :=
    succeeds_forAccGyr hsensors (succeeds_updateRegOr _ _ _) (succeeds_updateRegOr _ _ _)
  have hmode : SucceedsOk (setSampleMode 3 sampleModeContinuous) := succeeds_updateReg _ _ _
  refine .guard (succeeds_updateReg _ _ _) (.guard (hacc 3 rfl _ _) ?_)
  exact .guard hmode (.guard (hacc 3 rfl _ _) (.guard (hacc 1 rfl _ _) (hacc 2 rfl _ _)))

section
variable {σ : Type} {env : Env σ BusEvent BusEvent.Resp} {s s' : σ} {tr : BusTrace σ}
  {retval : Status}

theorem exec_checkId : Prog.Exec env checkId s tr retval s' ↔
    ∃ r : Read (Fin 1 → Byte), env s (.read agb0RegWhoAmI 1) r s' ∧
      tr = [⟨s, .read agb0RegWhoAmI 1, r⟩] ∧
      retval = if r.retval ≠ Status.ok then r.retval
        else if r.val 0 ≠ whoAmI then Status.wrongID else Status.ok := by
  have hrest (r : Read (Fin 1 → Byte)) (s₁ : σ) (t : BusTrace σ) : Prog.Exec env
      (let r' : Read Byte := ⟨r.retval, (if r.retval = Status.ok then r.val else fun _ => 0) 0⟩
       if r'.retval ≠ Status.ok then pure r'.retval
       else if r'.val ≠ whoAmI then pure Status.wrongID else pure r'.retval) s₁ t retval s' ↔
      t = [] ∧ s' = s₁ ∧ retval = if r.retval ≠ Status.ok then r.retval
        else if r.val 0 ≠ whoAmI then Status.wrongID else Status.ok := by
    by_cases hr : r.retval = Status.ok
    · simp only [hr, ne_eq, not_true_eq_false, if_false, if_true]
      split <;> rw [Prog.exec_pure, and_comm (a := retval = _)]
    · simp only [hr, ne_eq, not_false_eq_true, if_true]
      rw [Prog.exec_pure, and_comm (a := retval = _)]
  constructor
  · rintro ⟨r, s₁, t₁, henv, rfl, hexec⟩
    obtain ⟨rfl, rfl, hret⟩ := (hrest r s₁ t₁).mp hexec
    exact ⟨r, henv, rfl, hret⟩
  · rintro ⟨r, henv, rfl, hret⟩
    exact ⟨r, s', [], henv, rfl, (hrest r s' []).mpr ⟨rfl, rfl, hret⟩⟩

/-- `swReset` does not read `WHO_AM_I`. -/
theorem uses_swReset : swReset.Uses fun e => ∀ len, e ≠ .read agb0RegWhoAmI len := by
  refine uses_updateReg 0 agb0RegPwrMgmt1 resetAssign (fun _ _ => BusEvent.noConfusion) ?_ ?_
  · exact fun len heq => absurd (BusEvent.read.inj heq).1 (by decide)
  · exact fun _ _ => BusEvent.noConfusion

theorem exec_startup : Prog.Exec env startup s tr retval s' ↔
    ∃ retval₁ s₁ t₁ t, tr = t₁ ++ t ∧ Prog.Exec env swReset s t₁ retval₁ s₁ ∧
      if retval₁ = Status.ok then
        ∃ retval₂ s₂ t₂ t₃, t = t₂ ++ t₃ ∧ Prog.Exec env checkId s₁ t₂ retval₂ s₂ ∧
          if retval₂ = Status.ok then Prog.Exec env startupTail s₂ t₃ retval s'
          else t₃ = [] ∧ retval = retval₂ ∧ s' = s₂
      else t = [] ∧ retval = retval₁ ∧ s' = s₁ := by
  refine exec_guard.trans ?_
  refine exists_congr fun retval₁ => exists_congr fun s₁ => exists_congr fun t₁ =>
    exists_congr fun t => and_congr_right fun _ => and_congr_right fun _ => ?_
  split
  · exact exec_guard
  · exact Iff.rfl

theorem startup_ok_iff (hexec : Prog.Exec env startup s tr retval s') :
    retval = Status.ok ↔ AllOk tr ∧ ReadsWhoAmI tr whoAmI := by
  obtain ⟨retval₁, s₁, t₁, t, rfl, hreset, hrest⟩ := exec_startup.mp hexec
  have hresetOk : retval₁ = Status.ok ↔ AllOk t₁ :=
    ReportsStatus.ok_iff (reports_updateReg _ _ _) (succeeds_updateReg _ _ _) hreset
  constructor
  · intro hok
    -- every step reports, and the check of the identity was passed
    refine ⟨reports_startup.exec hexec hok, ?_⟩
    by_cases h₁ : retval₁ = Status.ok
    · rw [if_pos h₁] at hrest
      obtain ⟨retval₂, s₂, t₂, t₃, rfl, hcheck, hrest₂⟩ := hrest
      have h₂ : retval₂ = Status.ok := by
        by_contra hne
        rw [if_neg hne] at hrest₂
        exact hne (hrest₂.2.1.symm.trans hok)
      obtain ⟨r, -, rfl, hret⟩ := exec_checkId.mp hcheck
      refine ⟨s₁, r, List.mem_append_right _ (List.mem_append_left _ List.mem_cons_self), ?_⟩
      by_contra hne
      by_cases hr : r.retval = Status.ok
      · rw [if_neg (not_not_intro hr), if_pos hne, h₂] at hret
        exact absurd hret (by decide)
      · rw [if_pos hr, h₂] at hret
        exact hr hret.symm
    · rw [if_neg h₁] at hrest
      exact absurd (hrest.2.1.symm.trans hok) h₁
  · rintro ⟨hall, hread⟩
    obtain ⟨hall₁, hall₂⟩ := (allOk_append _ _).mp hall
    rw [if_pos (hresetOk.mpr hall₁)] at hrest
    obtain ⟨retval₂, s₂, t₂, t₃, rfl, hcheck, hrest₂⟩ := hrest
    obtain ⟨r, -, rfl, hret⟩ := exec_checkId.mp hcheck
    obtain ⟨hgood, hall₃⟩ := (allOk_cons _ _).mp hall₂
    have hr : r.retval = Status.ok := hgood
    rw [if_neg (not_not_intro hr)] at hret
    by_cases hval : r.val 0 = whoAmI
    · rw [if_neg (not_not_intro hval)] at hret
      rw [if_pos hret] at hrest₂
      exact succeeds_startupTail.exec hrest₂ hall₃
    · -- the only read of `WHO_AM_I` is this one
      rw [if_pos hval] at hret
      rw [hret, if_neg (by decide)] at hrest₂
      obtain ⟨rfl, -, -⟩ := hrest₂
      obtain ⟨s₃, r', hmem, hval'⟩ := hread
      rcases List.mem_append.mp hmem with hmem | hmem
      · exact absurd rfl (uses_swReset.exec hreset _ hmem 1)
      · have heq := List.mem_singleton.mp hmem
        rw [Obs.mk.injEq] at heq
        rw [eq_of_heq heq.2.2] at hval'
        exact absurd hval' hval

end

/-! ## The registers afterwards -/

/-- The registers after the steps of `startupTail`, in their order. -/
def configured (reset : RegFile) : RegFile :=
  let regs := reset.set agb0RegPwrMgmt1 (PwrMgmt1.sleep.set 0 (reset.get agb0RegPwrMgmt1))
  let regs := regs.set agb2RegAccelConfig
    (AccelConfig.accelFsSel.set 3 (regs.get agb2RegAccelConfig))
  let regs := regs.set agb2RegGyroConfig1
    (GyroConfig1.gyroFsSel.set 3 (regs.get agb2RegGyroConfig1))
  let regs := regs.set agb0RegLpConfig (sampleModeAssign 3 sampleModeContinuous (regs.get agb0RegLpConfig))
  regs.set agb2RegGyroConfig1 (GyroConfig1.gyroFchoice.set 0 (regs.get agb2RegGyroConfig1))

section
variable {reset regs regs' : RegFile}

theorem chip_updated {reg : Byte} (hport : isPort reg = false) {assign : Byte → Byte}
    (hquiet : ¬ requestsReset (.write reg [assign (regs.get reg)]))
    (hup : Updated (chip reset) reg assign regs regs') :
    regs' = regs.set reg (assign (regs.get reg)) :=
  (stores_chip reset).updated hport id id hquiet hup

/-- A reset request leaves the registers as the reset does, whatever they were. -/
theorem chip_swReset {tr : BusTrace RegFile}
    (hexec : Prog.Exec (chip reset) swReset regs tr Status.ok regs') : regs' = reset := by
  obtain ⟨garbage, regs₁, r, regs₂, -, -, -, hwrite⟩ := exec_updateReg_ok hexec rfl
  have hreset : requestsReset (.write agb0RegPwrMgmt1 [resetAssign (r.val 0)]) := by
    rw [requestsReset_writeByte _ _ rfl, resetAssign_eq]
    decide
  have hregs := hwrite rfl
  rwa [if_pos hreset] at hregs

theorem chip_forAccGyr {sensors : Sensors} {accel gyro : Byte → Byte} {tr : BusTrace RegFile}
    (hexec : Prog.Exec (chip reset) (forAccGyr sensors (updateRegOr 2 agb2RegAccelConfig accel)
      (updateRegOr 2 agb2RegGyroConfig1 gyro)) regs tr Status.ok regs') :
    regs' = rewriteAccGyr sensors accel gyro regs := by
  have hquiet {reg : Byte} (hport : isPort reg = false) (hne : addr reg ≠ addr agb0RegPwrMgmt1)
      (b : Byte) : ¬ requestsReset (.write reg [b]) :=
    fun h => hne ((requestsReset_writeByte reg b hport).mp h).1
  obtain ⟨regs₁, t₁, t₂, hacc, hgyr⟩ := exec_forAccGyr_ok hexec
  have hregs₁ := (stores_chip reset).block rfl id id (hquiet rfl (by decide)) hacc
  have hregs' := (stores_chip reset).block rfl id id (hquiet rfl (by decide)) hgyr
  rw [hregs', hregs₁]
  rfl

theorem chip_startupTail (hreset : PwrMgmt1.deviceReset.get (reset.get agb0RegPwrMgmt1) = 0)
    {tr : BusTrace RegFile} (hexec : Prog.Exec (chip reset) startupTail reset tr Status.ok regs') :
    regs' = configured reset := by
  obtain ⟨regs₁, t₁, u₁, hsleep, hexec₁⟩ := exec_guard_ok hexec
  obtain ⟨regs₂, t₂, u₂, hscale, hexec₂⟩ := exec_guard_ok hexec₁
  obtain ⟨regs₃, t₃, u₃, hmode, hexec₃⟩ := exec_guard_ok hexec₂
  obtain ⟨regs₄, t₄, u₄, hdlpf, hexec₄⟩ := exec_guard_ok hexec₃
  obtain ⟨regs₅, t₅, u₅, hacc, hgyr⟩ := exec_guard_ok hexec₄
  -- the byte that `sleep` writes back asks for no second reset
  have hquiet : ¬ requestsReset (.write agb0RegPwrMgmt1
      [PwrMgmt1.sleep.set (bit false) (reset.get agb0RegPwrMgmt1)]) := by
    rw [requestsReset_writeByte _ _ rfl, BitField.get_set_of_apart _ _ (by decide), hreset]
    exact fun h => h.2 rfl
  -- each step replaces its register by what the source assigns to it
  have h₁ := chip_updated rfl hquiet (exec_updateReg_ok hsleep rfl)
  have h₂ := chip_forAccGyr hscale
  have hquiet₃ : ¬ requestsReset (.write agb0RegLpConfig
      [sampleModeAssign 3 sampleModeContinuous (regs₂.get agb0RegLpConfig)]) := by
    rw [requestsReset_writeByte _ _ rfl]
    exact fun h => absurd h.1 (by decide)
  have h₃ := chip_updated rfl hquiet₃ (exec_updateReg_ok hmode rfl)
  have h₄ := chip_forAccGyr hdlpf
  have h₅ := chip_forAccGyr hacc
  have h₆ := chip_forAccGyr hgyr
  -- `set_dlpf_cfg` writes back what it read, and `enable_dlpf` does so for the accelerometer
  rw [rewriteAccGyr, rewriteReg_id, rewriteReg_id] at h₄
  rw [rewriteAccGyr, rewriteReg_id] at h₅ h₆
  rw [h₆, h₅, h₄, h₃, h₂, h₁]
  rfl

end

/-- Every field of a register that a step does not assign is still as the reset left it. -/
theorem broughtUp_configured (reset : RegFile) : BroughtUp reset (configured reset) := by
  have hpwr : (configured reset).get agb0RegPwrMgmt1 =
      PwrMgmt1.sleep.set 0 (reset.get agb0RegPwrMgmt1) := by
    simp (disch := decide) only [configured, RegFile.get_set, RegFile.get_set_of_ne]
  have hacc : (configured reset).get agb2RegAccelConfig =
      AccelConfig.accelFsSel.set 3 (reset.get agb2RegAccelConfig) := by
    simp (disch := decide) only [configured, RegFile.get_set, RegFile.get_set_of_ne]
  have hgyr : (configured reset).get agb2RegGyroConfig1 = GyroConfig1.gyroFchoice.set 0
      (GyroConfig1.gyroFsSel.set 3 (reset.get agb2RegGyroConfig1)) := by
    simp (disch := decide) only [configured, RegFile.get_set, RegFile.get_set_of_ne]
  have hlp : (configured reset).get agb0RegLpConfig = LpConfig.gyroCycle.set 0
      (LpConfig.accelCycle.set 0 (reset.get agb0RegLpConfig)) := by
    simp (disch := decide) only [configured, RegFile.get_set, RegFile.get_set_of_ne]
    rfl
  constructor
  case sleep => rw [hpwr, BitField.get_set]; rfl
  case accelFsSel => rw [hacc, BitField.get_set]; rfl
  case gyroFsSel =>
    rw [hgyr, BitField.get_set_of_apart _ _ (by decide), BitField.get_set]
    rfl
  case accelCycle =>
    rw [hlp, BitField.get_set_of_apart _ _ (by decide), BitField.get_set]
    rfl
  case gyroCycle => rw [hlp, BitField.get_set]; rfl
  case gyroFchoice => rw [hgyr, BitField.get_set]; rfl
  case pwrMgmt1 =>
    intro i hi
    rw [hpwr, BitField.getLsbD_set_of_not_covers _ _ _ _ hi]
  case accelConfig =>
    intro i hi
    rw [hacc, BitField.getLsbD_set_of_not_covers _ _ _ _ hi]
  case gyroConfig1 =>
    intro i hfs hfchoice
    rw [hgyr, BitField.getLsbD_set_of_not_covers _ _ _ _ hfchoice,
      BitField.getLsbD_set_of_not_covers _ _ _ _ hfs]
  case lpConfig =>
    intro i hacycle hgcycle
    rw [hlp, BitField.getLsbD_set_of_not_covers _ _ _ _ hgcycle,
      BitField.getLsbD_set_of_not_covers _ _ _ _ hacycle]
  case elsewhere =>
    intro reg hreg
    simp only [List.mem_cons, List.not_mem_nil, or_false, not_or] at hreg
    obtain ⟨hne₁, hne₂, hne₃, hne₄⟩ := hreg
    rw [configured, RegFile.get_set_of_ne _ hne₃, RegFile.get_set_of_ne _ hne₄,
      RegFile.get_set_of_ne _ hne₃, RegFile.get_set_of_ne _ hne₂, RegFile.get_set_of_ne _ hne₁]

/-- Whatever the registers were before and after the reset, and whatever fails. -/
theorem startupDefault_brings_up {reset : RegFile}
    (hreset : PwrMgmt1.deviceReset.get (reset.get agb0RegPwrMgmt1) = 0) {icm icm' : Icm20948}
    {before after : RegFile} {tr : BusTrace RegFile} {retval : Status}
    (hexec : Prog.Exec (chip reset) ((Icm20948.startupDefault false).run icm) before tr
      (retval, icm') after) :
    (retval = Status.ok ↔ AllOk tr ∧ ReadsWhoAmI tr whoAmI) ∧
      (retval = Status.ok → BroughtUp reset after) := by
  -- without the object, the method is `startup`
  rw [mirrors_startupDefault icm] at hexec
  obtain ⟨retval₁, regs₁, t₁, t₂, rfl, hstartup, hret⟩ := (Prog.exec_bind _ _ _ _ _ _ _).mp hexec
  obtain ⟨rfl, rfl, -, rfl⟩ := Prog.exec_pureM.mp hret
  rw [List.append_nil]
  refine ⟨startup_ok_iff hstartup, fun hok => ?_⟩
  obtain rfl : retval = Status.ok := hok
  obtain ⟨regs₂, t₃, u₃, hswReset, hexec₁⟩ := exec_guard_ok hstartup
  obtain ⟨regs₃, t₄, u₄, hcheckId, hexec₂⟩ := exec_guard_ok hexec₁
  have hregs₂ : regs₂ = reset := chip_swReset hswReset
  have hregs₃ : regs₃ = reset := by
    obtain ⟨r, hread, -, hret⟩ := exec_checkId.mp hcheckId
    have hr : r.retval = Status.ok := by
      by_contra hne
      rw [if_pos hne] at hret
      exact hne hret.symm
    exact (stores_chip reset _ _ _ _ hread hr id).1.trans hregs₂
  rw [hregs₃] at hexec₂
  rw [chip_startupTail hreset hexec₂]
  exact broughtUp_configured reset

/-- A chip on which nothing fails. -/
def soundChip (reset : RegFile) : Handler RegFile BusEvent BusEvent.Resp := fun e regs =>
  ((registers e regs).1, if requestsReset e then reset else (registers e regs).2)

theorem chip_soundChip (reset regs : RegFile) (e : BusEvent) (r : e.Resp) (regs' : RegFile)
    (h : soundChip reset e regs = (r, regs')) : chip reset regs e r regs' := by
  obtain ⟨rfl, rfl⟩ := Prod.mk.inj h
  intro _
  split
  · rfl
  · exact (flatDevice_registers regs e).2

/-- The registers after a reset: asleep, and every field at its largest value. -/
def resetRegs : RegFile := fun a =>
  if a = addr agb0RegPwrMgmt1 then 0x7F else if a = addr agb0RegWhoAmI then whoAmI else 0xFF

theorem startupDefault_brings_up_soundChip :
    BroughtUp resetRegs (Prog.run (soundChip resetRegs)
      ((Icm20948.startupDefault false).run staticObject) fun _ => 0xFF).2 :=
  (startupDefault_brings_up (by decide) ((Prog.exec_run (soundChip resetRegs)
    ((Icm20948.startupDefault false).run staticObject) fun _ => 0xFF).mono
      fun _ _ _ _ => chip_soundChip resetRegs _ _ _ _)).2 (by decide)

end SimuSound.Imu
