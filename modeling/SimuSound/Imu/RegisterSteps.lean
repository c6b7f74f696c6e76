import SimuSound.Imu.Fifo
import SimuSound.Imu.I2cMaster
import SimuSound.Imu.Interrupts
import SimuSound.Imu.Sensors

/-!
# RegisterSteps — driver functions by the registers they access

Most functions of the driver access a few registers and end with `Ok` when no access fails.  What a
function does not access it does not disturb.
-/

namespace SimuSound.Imu

open Reasoning

/-- The access is to one of the registers `ok`, if to any. -/
def Among (ok : Byte → Prop) (e : BusEvent) : Prop := ∀ reg ∈ e.reg, ok reg

/-- Code that accesses only the registers `ok`, and succeeds when nothing fails. -/
structure OnRegisters (ok : Byte → Prop) (p : Io Status) : Prop where
  uses : p.Uses (Among ok)
  succeeds : SucceedsOk p

section
variable {ok : Byte → Prop} {reg : Byte}

theorem among_uninit (len : Nat) : Among ok (.uninit len) :=
  fun reg hmem => absurd hmem (Option.not_mem_none reg)

theorem among_read (hreg : ok reg) (len : Nat) : Among ok (.read reg len) := by
  intro other hmem
  obtain rfl := Option.some.inj hmem
  exact hreg

theorem among_write (hreg : ok reg) (data : List Byte) : Among ok (.write reg data) := by
  intro other hmem
  obtain rfl := Option.some.inj hmem
  exact hreg

theorem OnRegisters.write (hreg : ok reg) (data : List Byte) :
    OnRegisters ok (executeW reg data) :=
  ⟨⟨among_write hreg data, fun _ => trivial⟩, succeeds_executeW reg data⟩

theorem onRegisters_ok : OnRegisters ok (pure Status.ok) := ⟨trivial, rfl⟩

theorem OnRegisters.guard {p : Io Status} {q : Status → Io Status} (hp : OnRegisters ok p)
    (hq : ∀ retval, OnRegisters ok (q retval)) :
    OnRegisters ok (p >>= fun retval => if retval ≠ Status.ok then pure retval else q retval) :=
  ⟨uses_guard hp.uses fun retval => (hq retval).uses, hp.succeeds.guard (hq Status.ok).succeeds⟩

theorem OnRegisters.garbage {q : Byte → Io Status} (hq : ∀ garbage, OnRegisters ok (q garbage)) :
    OnRegisters ok (uninitByte >>= q) :=
  ⟨⟨among_uninit 1, fun garbage => (hq (garbage 0)).uses⟩,
    succeeds_garbage fun garbage => (hq garbage).succeeds⟩

theorem OnRegisters.guardRead {dest : Byte} {q : Read Byte → Io Status} (hreg : ok reg)
    (hq : ∀ r, OnRegisters ok (q r)) :
    OnRegisters ok (readByte reg dest >>= fun r =>
      if r.retval ≠ Status.ok then pure r.retval else q r) :=
  ⟨uses_guardRead ⟨among_read hreg 1, fun _ => trivial⟩ fun r => (hq r).uses,
    .guardRead (succeeds_readByte reg dest) fun r => (hq r).succeeds⟩

theorem OnRegisters.updateReg (hreg : ok reg) (bank : Byte) (assign : Byte → Byte) :
    OnRegisters ok (updateReg bank reg assign) :=
  ⟨uses_updateReg bank reg assign among_uninit (among_read hreg 1)
    fun _ => among_write hreg _, succeeds_updateReg bank reg assign⟩

theorem OnRegisters.updateRegOr (hreg : ok reg) (bank : Byte) (assign : Byte → Byte) :
    OnRegisters ok (updateRegOr bank reg assign) :=
  ⟨⟨among_uninit 1, fun _ => ⟨among_read hreg 1, fun _ => ⟨among_write hreg _,
    fun _ => trivial⟩⟩⟩, succeeds_updateRegOr bank reg assign⟩

/-! ## Sensors -/

theorem OnRegisters.forAccGyr {sensors : Sensors} {acc gyr : Io Status}
    (hsensors : sensors.has (internalAcc ||| internalGyr)) (hacc : OnRegisters ok acc)
    (hgyr : OnRegisters ok gyr) : OnRegisters ok (forAccGyr sensors acc gyr) :=
  ⟨uses_forAccGyr sensors hacc.uses hgyr.uses,
    succeeds_forAccGyr hsensors hacc.succeeds hgyr.succeeds⟩

theorem onRegisters_setFullScale {sensors : Sensors} (hacc : ok agb2RegAccelConfig)
    (hgyr : ok agb2RegGyroConfig1) (hsensors : sensors.has (internalAcc ||| internalGyr))
    (fss : Fss) : OnRegisters ok (setFullScale sensors fss) :=
  .forAccGyr hsensors (.updateRegOr hacc _ _) (.updateRegOr hgyr _ _)

theorem onRegisters_enableDlpf {sensors : Sensors} (hacc : ok agb2RegAccelConfig)
    (hgyr : ok agb2RegGyroConfig1) (hsensors : sensors.has (internalAcc ||| internalGyr))
    (enable : Bool) : OnRegisters ok (enableDlpf sensors enable) :=
  .forAccGyr hsensors (.updateRegOr hacc _ _) (.updateRegOr hgyr _ _)

/-- The dividers are only written. -/
theorem uses_setSampleRate {P : BusEvent → Prop}
    (hdiv1 : ∀ b, P (.write agb2RegAccelSmplrtDiv1 [b]))
    (hdiv2 : ∀ b, P (.write agb2RegAccelSmplrtDiv2 [b]))
    (hgyr : ∀ b, P (.write agb2RegGyroSmplrtDiv [b])) (sensors : Sensors) (smplrt : Smplrt) :
    (setSampleRate sensors smplrt).Uses P := by
  have hbyte {reg : Byte} (hreg : ∀ b, P (.write reg [b])) (b : Byte) : (writeByte reg b).Uses P :=
    ⟨hreg b, fun _ => trivial⟩
  refine uses_forAccGyr sensors ?_ ?_
  · exact (hbyte hdiv1 _).bind fun _ => (hbyte hdiv2 _).bind fun _ => trivial
  · exact (hbyte hgyr _).bind fun _ => trivial

theorem succeeds_setSampleRate {sensors : Sensors}
    (hsensors : sensors.has (internalAcc ||| internalGyr)) (smplrt : Smplrt) :
    SucceedsOk (setSampleRate sensors smplrt) := by
  refine succeeds_forAccGyr hsensors ?_ ?_
  · refine (succeeds_writeByte _ _).bind fun retval₁ h₁ => ?_
    refine (succeeds_writeByte _ _).bind fun retval₂ h₂ => ?_
    exact (Status.or_eq_ok _ _).mpr ⟨(Status.or_eq_ok _ _).mpr ⟨rfl, h₁⟩, h₂⟩
  · refine (succeeds_writeByte _ _).bind fun retval₁ h₁ => ?_
    exact (Status.or_eq_ok _ _).mpr ⟨rfl, h₁⟩

/-! ## FIFO and auxiliary I2C -/

theorem onRegisters_resetFifo (hreg : ok agb0RegFifoRst) : OnRegisters ok resetFifo := by
  refine .garbage fun garbage => .guard onRegisters_ok fun _ => .guardRead hreg fun r => ?_
  exact .guard (.write hreg _) fun _ => .write hreg _

theorem onRegisters_configurePeripheral {peripheral : Byte} {regs : PeriphRegs}
    (hregs : periphRegs peripheral = some regs) (haddr : ok regs.periphAddrReg)
    (hdo : ok regs.periphDoReg) (hreg : ok regs.periphRegReg) (hctrl : ok regs.periphCtrlReg)
    (c : PeriphConfig) : OnRegisters ok (i2cControllerConfigurePeripheral peripheral c) := by
  unfold i2cControllerConfigurePeripheral
  rw [hregs]
  refine .guard onRegisters_ok fun _ => .garbage fun address => ?_
  refine .guard (.write haddr _) fun _ => ?_
  have hrest : OnRegisters ok (writeByte regs.periphRegReg c.reg >>= fun retval =>
      if retval ≠ Status.ok then pure retval
      else uninitByte >>= fun ctrl => writeByte regs.periphCtrlReg (c.ctrl ctrl)) :=
    .guard (.write hreg _) fun _ => .garbage fun ctrl => .write hctrl _
  split
  · exact .guard onRegisters_ok fun _ => hrest
  · exact .guard (.write hdo _) fun _ => hrest

/-! ## The interrupt enables -/

variable {w dest : IntEnables} {en : Fin 4 → Byte}

/-- All four registers. -/
def AllEnables (ok : Byte → Prop) : Prop :=
  ok agb0RegIntEnable ∧ ok agb0RegIntEnable1 ∧ ok agb0RegIntEnable2 ∧ ok agb0RegIntEnable3

theorem onRegisters_intEnableWrite (h : AllEnables ok) : OnRegisters ok (intEnableWrite w en) := by
  obtain ⟨h0, h1, h2, h3⟩ := h
  refine .guard (.write h0 _) fun _ => .guard (.write h1 _) fun _ => ?_
  exact .guard (.write h2 _) fun _ => .write h3 _

theorem uses_intEnableRead (h : AllEnables ok) : (intEnableRead dest en).Uses (Among ok) := by
  obtain ⟨h0, h1, h2, h3⟩ := h
  have hread {reg : Byte} (hreg : ok reg) (b : Byte) : (readByte reg b).Uses (Among ok) :=
    ⟨among_read hreg 1, fun _ => trivial⟩
  refine uses_guardRead (hread h0 _) fun _ => uses_guardRead (hread h1 _) fun _ => ?_
  exact uses_guardRead (hread h2 _) fun _ => uses_guardRead (hread h3 _) fun _ => trivial

theorem succeeds_intEnableRead :
    (intEnableRead dest en).Succeeds Good fun r => r.retval = Status.ok := by
  refine succeeds_guardRead (succeeds_readByte _ _) fun _ _ => ?_
  refine succeeds_guardRead (succeeds_readByte _ _) fun _ _ => ?_
  refine succeeds_guardRead (succeeds_readByte _ _) fun _ _ => ?_
  exact succeeds_guardRead (succeeds_readByte _ _) fun _ hok => hok

theorem uses_intEnable (h : AllEnables ok) (write : Option IntEnables) :
    (intEnable write (some dest)).Uses (Among ok) := by
  refine ⟨among_uninit 4, fun en => ?_⟩
  have hrest : (intEnableRead dest en >>= fun r =>
      (pure ⟨r.retval, some r.val⟩ : Io (Read (Option IntEnables)))).Uses (Among ok) :=
    (uses_intEnableRead h).bind fun _ => trivial
  cases write with
  | none => exact hrest
  | some w => exact uses_guard (onRegisters_intEnableWrite h).uses fun _ => hrest

/-- Without a failure neither half ends early. -/
theorem succeeds_intEnableWrite : SucceedsOk (intEnableWrite w en) :=
  (@onRegisters_intEnableWrite (fun _ => True) w en ⟨trivial, trivial, trivial, trivial⟩).succeeds

theorem succeeds_intEnable (write : Option IntEnables) :
    (intEnable write (some dest)).Succeeds Good fun r => r.retval = Status.ok := by
  intro en _
  have hrest : (intEnableRead dest en >>= fun r =>
      (pure ⟨r.retval, some r.val⟩ : Io (Read (Option IntEnables)))).Succeeds Good
      fun r => r.retval = Status.ok :=
    succeeds_intEnableRead.bind fun _ hok => hok
  cases write with
  | none => exact hrest
  | some w =>
    refine succeeds_intEnableWrite.bind fun retval hok => ?_
    show Prog.Succeeds Good _ (if retval ≠ Status.ok then _ else _)
    rw [if_neg (not_not_intro hok)]
    exact hrest

end

end SimuSound.Imu
