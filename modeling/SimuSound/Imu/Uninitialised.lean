import SimuSound.Imu.Interference
import SimuSound.Imu.Sensors
import SimuSound.Imu.Power
import SimuSound.Reasoning.NonInterference

/-!
# Uninitialised — what the former contents of the stack can change

A local variable that is not initialised holds a secret: whatever was on the stack.  It gets out
when a read into it fails and the function carries on.
-/

namespace SimuSound.Imu

open Reasoning

/-- The contents of a local variable. -/
def BusEvent.OfStack : BusEvent → Prop
  | .uninit _ => True
  | _ => False

/-- The bytes that go out to the device. -/
def BusEvent.written : BusEvent → Option (Byte × List Byte)
  | .write reg data => some (reg, data)
  | _ => none

/-- The linked serial interface and the device behind it: every answer, failures included, follows
from the state. -/
abbrev Linked (σ : Type) := Handler σ BusEvent BusEvent.Resp

section
variable {σ : Type} (dev : Linked σ)

/-- The device under a program whose locals can hold anything. -/
abbrev Linked.env : Env σ BusEvent BusEvent.Resp := dev.hiding BusEvent.OfStack

/-- The same with every byte of the locals holding `b`. -/
def Linked.filled (b : Byte) : Linked σ
  | .uninit _, s => (fun _ => b, s)
  | e, s => dev e s

/-- Whatever the locals hold, both programs write the same bytes, and `Q` relates their results. -/
abbrev Alike {α β : Type} (Q : α → β → σ → Prop) (p : Io α) (q : Io β) (s : σ) : Prop :=
  Prog.Alike dev.env BusEvent.written Q p q s

/-- With the same result. -/
abbrev Same {α : Type} (p q : Io α) (s : σ) : Prop := Alike dev (fun a b _ => a = b) p q s

/-- The locals show neither in what is written nor in the result. -/
abbrev Private {α : Type} (p : Io α) (s : σ) : Prop := Prog.Private dev.env BusEvent.written p s

theorem exec_filled {α : Type} (b : Byte) (p : Io α) (s : σ) :
    Prog.Exec dev.env p s (Prog.trace (dev.filled b) p s) (Prog.run (dev.filled b) p s).1
      (Prog.run (dev.filled b) p s).2 := by
  refine Prog.exec_choice (fun e s he => ?_) (fun e s he => ?_) p s
  · cases e with
    | uninit len => rfl
    | read reg len => exact absurd he id
    | write reg data => exact absurd he id
    | spiOpen csPin freq => exact absurd he id
  · cases e with
    | uninit len => exact absurd trivial he
    | read reg len => rfl
    | write reg data => rfl
    | spiOpen csPin freq => rfl

end

/-! ## Locals -/

section
variable {σ α β : Type} {dev : Linked σ} {s : σ}

theorem alike_garbage {Q : α → β → σ → Prop} {p : Byte → Io α} {q : Byte → Io β}
    (h : ∀ garbage garbage', Alike dev Q (p garbage) (q garbage') s) :
    Alike dev Q (uninitByte >>= p) (uninitByte >>= q) s := by
  have huninit : Alike dev (fun _ _ s' => s' = s) uninitByte uninitByte s :=
    (Prog.alike_secret trivial).bind fun _ _ _ hstate => Prog.alike_pure hstate
  refine huninit.bind fun garbage garbage' s' hstate => ?_
  rw [hstate]
  exact h garbage garbage'

/-- What a read leaves in a destination that held `dest`. -/
def fetched {len : Nat} (r : Read (Fin len → Byte)) (dest : Fin len → Byte) :
    Read (Fin len → Byte) :=
  ⟨r.retval, if r.retval = Status.ok then r.val else dest⟩

def fetchedByte (r : Read (Fin 1 → Byte)) (dest : Byte) : Read Byte :=
  ⟨(fetched r fun _ => dest).retval, (fetched r fun _ => dest).val 0⟩

theorem fetched_ok {len : Nat} {r : Read (Fin len → Byte)} (h : r.retval = Status.ok)
    (dest : Fin len → Byte) : fetched r dest = r := by
  rw [fetched, if_pos h]

theorem fetched_failed {len : Nat} {r : Read (Fin len → Byte)} (h : r.retval ≠ Status.ok)
    (dest : Fin len → Byte) : (fetched r dest).val = dest := if_neg h

theorem fetchedByte_ok {r : Read (Fin 1 → Byte)} (h : r.retval = Status.ok) (dest : Byte) :
    fetchedByte r dest = ⟨r.retval, r.val 0⟩ := by
  rw [fetchedByte, fetched_ok h]

theorem fetchedByte_failed {r : Read (Fin 1 → Byte)} (h : r.retval ≠ Status.ok) (dest : Byte) :
    (fetchedByte r dest).val = dest := congrFun (fetched_failed h fun _ => dest) 0

theorem alike_executeR (reg : Byte) {len : Nat} (dest dest' : Fin len → Byte) :
    Alike dev (fun r r' s' => ∃ r₀, dev (.read reg len) s = (r₀, s') ∧ r = fetched r₀ dest ∧
      r' = fetched r₀ dest') (executeR reg dest) (executeR reg dest') s := by
  refine (Prog.alike_public id).bind fun r₀ r₀' s' hr => ?_
  rw [hr.2]
  exact Prog.alike_pure ⟨r₀, hr.1, rfl, rfl⟩

theorem alike_readByte (reg dest dest' : Byte) :
    Alike dev (fun r r' s' => ∃ r₀, dev (.read reg 1) s = (r₀, s') ∧ r = fetchedByte r₀ dest ∧
      r' = fetchedByte r₀ dest') (readByte reg dest) (readByte reg dest') s := by
  refine (alike_executeR reg _ _).bind fun r r' s' hr => ?_
  obtain ⟨r₀, hdev, rfl, rfl⟩ := hr
  exact Prog.alike_pure ⟨r₀, hdev, rfl, rfl⟩

/-! ## Functions that stop at a failed read -/

theorem same_writeByte (reg b : Byte) : Same dev (writeByte reg b) (writeByte reg b) s := by
  have huses : (writeByte reg b).Uses fun e => ¬ e.OfStack := ⟨id, fun _ => trivial⟩
  exact Prog.alike_of_uses huses s

theorem same_guard {p p' : Io Status} {fail : Status → α} {q q' : Status → Io α}
    (hp : Same dev p p' s) (hq : ∀ s', Same dev (q Status.ok) (q' Status.ok) s') :
    Same dev (p >>= fun retval => if retval ≠ Status.ok then pure (fail retval) else q retval)
      (p' >>= fun retval => if retval ≠ Status.ok then pure (fail retval) else q' retval) s := by
  refine hp.bind fun retval retval' s' hretval => ?_
  rw [← hretval]
  split
  · exact Prog.alike_pure rfl
  · next hok =>
    rw [Classical.not_not.mp hok]
    exact hq s'

/-- A failed read ends the function and leaves only its status. -/
theorem same_readGuard (fail : Status → α) {reg dest dest' : Byte} {p q : Read Byte → Io α}
    (h : ∀ r s', Same dev (p r) (q r) s') :
    Same dev (readByte reg dest >>= fun r =>
        if r.retval ≠ Status.ok then pure (fail r.retval) else p r)
      (readByte reg dest' >>= fun r =>
        if r.retval ≠ Status.ok then pure (fail r.retval) else q r) s := by
  refine (alike_readByte reg dest dest').bind fun r r' s' hr => ?_
  obtain ⟨r₀, -, rfl, rfl⟩ := hr
  by_cases hok : r₀.retval = Status.ok
  · have hgo (b : Byte) : ¬ (fetchedByte r₀ b).retval ≠ Status.ok := not_not_intro hok
    rw [if_neg (hgo dest), if_neg (hgo dest'), fetchedByte_ok hok, fetchedByte_ok hok]
    exact h _ s'
  · have hstop (b : Byte) : (fetchedByte r₀ b).retval ≠ Status.ok := hok
    rw [if_pos (hstop dest), if_pos (hstop dest')]
    exact Prog.alike_pure rfl

theorem same_updateReg (bank reg : Byte) (assign : Byte → Byte) :
    Same dev (updateReg bank reg assign) (updateReg bank reg assign) s :=
  alike_garbage fun _ _ => same_readGuard id fun r _ => same_writeByte reg (assign r.val)

theorem same_i2cMasterEnable (enable : Bool) :
    Same dev (i2cMasterEnable enable) (i2cMasterEnable enable) s :=
  same_guard (same_updateReg _ _ _) fun _ => same_guard (same_updateReg _ _ _) fun _ =>
    same_updateReg _ _ _

theorem same_setSampleMode (sensors : Sensors) (mode : BitVec 32) :
    Same dev (setSampleMode sensors mode) (setSampleMode sensors mode) s := by
  unfold setSampleMode
  split
  · exact same_updateReg _ _ _
  · exact Prog.alike_pure rfl

theorem same_resetFifo : Same dev resetFifo resetFifo s :=
  alike_garbage fun _ _ => same_readGuard id fun _ _ =>
    same_guard (same_writeByte _ _) fun _ => same_writeByte _ _

/-! ## Functions that assign every bit -/

theorem same_i2cControllerConfigurePeripheral (peripheral : Byte) (c : PeriphConfig) :
    Same dev (i2cControllerConfigurePeripheral peripheral c)
      (i2cControllerConfigurePeripheral peripheral c) s := by
  have hctrl (periph : PeriphRegs) (s' : σ) :
      Same dev (writeByte periph.periphRegReg c.reg >>= fun retval =>
          if retval ≠ Status.ok then pure retval else uninitByte >>= fun ctrl =>
            writeByte periph.periphCtrlReg (c.ctrl ctrl))
        (writeByte periph.periphRegReg c.reg >>= fun retval =>
          if retval ≠ Status.ok then pure retval else uninitByte >>= fun ctrl =>
            writeByte periph.periphCtrlReg (c.ctrl ctrl)) s' := by
    refine same_guard (same_writeByte _ _) fun _ => alike_garbage fun ctrl ctrl' => ?_
    rw [ctrl_eq c ctrl, ctrl_eq c ctrl']
    exact same_writeByte _ _
  unfold i2cControllerConfigurePeripheral
  cases periphRegs peripheral with
  | none => exact Prog.alike_pure rfl
  | some periph =>
    refine alike_garbage fun address address' => ?_
    rw [address_eq c address, address_eq c address']
    refine same_guard (same_writeByte _ _) fun s' => ?_
    cases c.rw with
    | true => exact hctrl periph s'
    | false => exact same_guard (same_writeByte _ _) fun s₁ => hctrl periph s₁

theorem same_intEnableWrite (w : IntEnables) (en en' : Fin 4 → Byte) :
    Same dev (intEnableWrite w en) (intEnableWrite w en') s := by
  unfold intEnableWrite
  rw [en0_eq w (en 0), en1_eq w (en 1), en2_eq w (en 2), en3_eq w (en 3), en0_eq w (en' 0),
    en1_eq w (en' 1), en2_eq w (en' 2), en3_eq w (en' 3)]
  exact same_guard (same_writeByte _ _) fun _ => same_guard (same_writeByte _ _) fun _ =>
    same_guard (same_writeByte _ _) fun _ => same_writeByte _ _

theorem same_intEnableRead (dest : IntEnables) (en en' : Fin 4 → Byte) :
    Same dev (intEnableRead dest en) (intEnableRead dest en') s := by
  let fail (retval : Status) : Read IntEnables := ⟨retval, dest⟩
  exact same_readGuard fail fun _ _ => same_readGuard fail fun _ _ =>
    same_readGuard fail fun _ _ => same_readGuard fail fun _ _ =>
      Prog.alike_pure rfl

theorem same_intEnable (write read : Option IntEnables) :
    Same dev (intEnable write read) (intEnable write read) s := by
  have hread (dest : IntEnables) (en en' : Fin 4 → Byte) (s' : σ) :
      Same dev (intEnableRead dest en >>= fun r =>
          pure (⟨r.retval, some r.val⟩ : Read (Option IntEnables)))
        (intEnableRead dest en' >>= fun r =>
          pure (⟨r.retval, some r.val⟩ : Read (Option IntEnables))) s' := by
    refine (same_intEnableRead dest en en').bind fun r r' s₁ hr => ?_
    rw [hr]
    exact Prog.alike_pure rfl
  refine (Prog.alike_secret trivial).bind fun en en' s' _ => ?_
  cases write with
  | none =>
    cases read with
    | none => exact Prog.alike_pure rfl
    | some dest => exact hread dest en en' s'
  | some w =>
    refine same_guard (same_intEnableWrite w en en') fun s₁ => ?_
    cases read with
    | none => exact Prog.alike_pure rfl
    | some dest => exact hread dest en en' s₁

/-- There is no local variable to read. -/
theorem same_intPinCfg (write read : Option Byte) :
    Same dev (intPinCfg write read) (intPinCfg write read) s := by
  have hread (dest : Byte) : (readByte agb0RegIntPinConfig dest >>= fun r =>
      pure (⟨r.retval, some r.val⟩ : Read (Option Byte))).Uses fun e => ¬ e.OfStack :=
    ⟨id, fun _ => trivial⟩
  refine Prog.alike_of_uses ?_ s
  cases write with
  | none =>
    cases read with
    | none => trivial
    | some dest => exact hread dest
  | some w =>
    refine ⟨id, fun retval => .ite trivial ?_⟩
    cases read with
    | none => trivial
    | some dest => exact hread dest

/-! ## Functions that carry on after a failed read -/

/-- The read succeeds. -/
def Linked.Answers (dev : Linked σ) (reg : Byte) (len : Nat) (s : σ) : Prop :=
  (dev (.read reg len) s).1.retval = Status.ok

theorem alike_executeR_answered {reg : Byte} {len : Nat} (h : dev.Answers reg len s)
    (dest dest' : Fin len → Byte) :
    Alike dev (fun r r' s' => r' = r ∧ s' = (dev (.read reg len) s).2) (executeR reg dest)
      (executeR reg dest') s := by
  refine (alike_executeR reg dest dest').mono fun r r' s' hr => ?_
  obtain ⟨r₀, hdev, rfl, rfl⟩ := hr
  rw [Linked.Answers, hdev] at h
  rw [hdev, fetched_ok h, fetched_ok h]
  exact ⟨rfl, rfl⟩

theorem alike_readByte_answered {reg : Byte} (h : dev.Answers reg 1 s) (dest dest' : Byte) :
    Alike dev (fun r r' s' => r = ⟨(dev (.read reg 1) s).1.retval, (dev (.read reg 1) s).1.val 0⟩ ∧
        r' = r ∧ s' = (dev (.read reg 1) s).2) (readByte reg dest) (readByte reg dest') s := by
  refine (alike_readByte reg dest dest').mono fun r r' s' hr => ?_
  obtain ⟨r₀, hdev, rfl, rfl⟩ := hr
  rw [Linked.Answers, hdev] at h
  rw [hdev, fetchedByte_ok h, fetchedByte_ok h]
  exact ⟨rfl, rfl, rfl⟩

/-- The register is read, changed and written back: the results combined, and the state after. -/
def Linked.update (dev : Linked σ) (reg : Byte) (assign : Byte → Byte) (s : σ) : Status × σ :=
  let r := dev (.read reg 1) s
  let written := dev (.write reg [assign (r.1.val 0)]) r.2
  (Status.ok ||| r.1.retval ||| written.1, written.2)

/-- After a read that succeeds there is one outcome. -/
theorem alike_updateRegOr (bank : Byte) {reg : Byte} (assign : Byte → Byte)
    (h : dev.Answers reg 1 s) :
    Alike dev (fun retval retval' s' => retval = (dev.update reg assign s).1 ∧
        retval' = (dev.update reg assign s).1 ∧ s' = (dev.update reg assign s).2)
      (updateRegOr bank reg assign) (updateRegOr bank reg assign) s := by
  refine alike_garbage fun garbage garbage' => ?_
  refine (alike_readByte_answered h garbage garbage').bind fun r r' s' hr => ?_
  obtain ⟨rfl, rfl, rfl⟩ := hr
  refine (Prog.alike_public id).bind fun written written' s₁ hwritten => ?_
  obtain ⟨hdev, rfl⟩ := hwritten
  rw [Linked.update, hdev]
  exact Prog.alike_pure ⟨rfl, rfl, rfl⟩

/-- A read that fails writes the local variable out, unless every bit of it is assigned. -/
theorem private_updateRegOr_iff {bank reg : Byte} {assign : Byte → Byte}
    (hassign : assign 0x00 ≠ assign 0xFF) {f : Status → Io α} :
    Private dev (updateRegOr bank reg assign >>= f) s ↔
      dev.Answers reg 1 s ∧
        Private dev (f (dev.update reg assign s).1) (dev.update reg assign s).2 := by
  by_cases h : dev.Answers reg 1 s
  · have halike := alike_updateRegOr bank assign h
    have hexec := exec_filled dev 0 (updateRegOr bank reg assign) s
    obtain ⟨-, -, hretval, -, hstate⟩ := halike _ _ _ _ _ _ hexec hexec
    rw [hretval, hstate] at hexec
    exact (Prog.private_bind_iff hexec halike).trans (and_iff_right h).symm
  · refine iff_of_false (fun hprivate => ?_) fun hboth => h hboth.1
    have hexec (b : Byte) := exec_filled dev b (updateRegOr bank reg assign >>= f) s
    obtain ⟨hseen, -⟩ := hprivate _ _ _ _ _ _ (hexec 0x00) (hexec 0xFF)
    -- the first write of either run
    have hfirst : assign (fetchedByte (dev (.read reg 1) s).1 0x00).val =
        assign (fetchedByte (dev (.read reg 1) s).1 0xFF).val := by
      have hwrite := (List.cons.inj hseen).1
      exact (List.cons.inj (Prod.mk.inj hwrite).2).1
    rw [fetchedByte_failed h, fetchedByte_failed h] at hfirst
    exact hassign hfirst

/-- The same for the block of one sensor. -/
def Linked.block (dev : Linked σ) (sensors mask : Sensors) (reg : Byte) (assign : Byte → Byte)
    (s : σ) : Status × σ :=
  if sensors.has mask then dev.update reg assign s else (Status.ok, s)

theorem private_block_iff {sensors mask : Sensors} {bank reg : Byte} {assign : Byte → Byte}
    (hassign : assign 0x00 ≠ assign 0xFF) {f : Status → Io α} :
    Private dev (sensors.block mask (updateRegOr bank reg assign) >>= f) s ↔
      (sensors.has mask → dev.Answers reg 1 s) ∧
        Private dev (f (dev.block sensors mask reg assign s).1)
          (dev.block sensors mask reg assign s).2 := by
  unfold Sensors.block Linked.block
  by_cases h : sensors.has mask = true
  · rw [if_pos h, if_pos h, forall_prop_of_true h]
    exact private_updateRegOr_iff hassign
  · rw [if_neg h, if_neg h]
    exact (and_iff_right fun hmask => absurd hmask h).symm

/-- The reads of the sensors' blocks succeed, that of the gyro after whatever the accelerometer's
block has done. -/
def Linked.AnswersBlocks (dev : Linked σ) (sensors : Sensors) (acc : Byte → Byte) (s : σ) : Prop :=
  (sensors.has internalAcc → dev.Answers agb2RegAccelConfig 1 s) ∧
    (sensors.has internalGyr → dev.Answers agb2RegGyroConfig1 1
      (dev.block sensors internalAcc agb2RegAccelConfig acc s).2)

theorem private_forAccGyr_iff {sensors : Sensors} {acc gyr : Byte → Byte}
    (hacc : acc 0x00 ≠ acc 0xFF) (hgyr : gyr 0x00 ≠ gyr 0xFF) :
    Private dev (forAccGyr sensors (updateRegOr 2 agb2RegAccelConfig acc)
      (updateRegOr 2 agb2RegGyroConfig1 gyr)) s ↔ dev.AnswersBlocks sensors acc s := by
  rw [forAccGyr_eq, private_block_iff hacc, private_block_iff hgyr]
  have hpure (retval : Status) (s' : σ) : Private dev (pure retval) s' :=
    (Prog.alike_pure rfl).isPrivate
  rw [and_iff_left (hpure _ _)]
  exact Iff.rfl

/-- The reads of `get_agmt` succeed, the last one apart: nothing uses what it reads. -/
def Linked.AnswersAgmt (dev : Linked σ) (s : σ) : Prop :=
  let s₁ := (dev (.read agb0RegAccelXoutH 14) s).2
  let s₂ := (dev (.read agb2RegAccelConfig 1) s₁).2
  dev.Answers agb0RegAccelXoutH 14 s ∧ dev.Answers agb2RegAccelConfig 1 s₁ ∧
    dev.Answers agb2RegGyroConfig1 1 s₂

/-- What the caller gets shows every byte that was not read. -/
theorem answersAgmt_of_private {agmt : Agmt} (h : Private dev (getAgmt (some agmt)) s) :
    dev.AnswersAgmt s := by
  let raw := dev (.read agb0RegAccelXoutH 14) s
  let acfg := dev (.read agb2RegAccelConfig 1) raw.2
  let gcfg1 := dev (.read agb2RegGyroConfig1 1) acfg.2
  have hexec (b : Byte) := exec_filled dev b (getAgmt (some agmt)) s
  obtain ⟨-, hresult⟩ := h _ _ _ _ _ _ (hexec 0x00) (hexec 0xFF)
  have hval := Option.some.inj (congrArg Read.val hresult)
  refine ⟨?_, ?_, ?_⟩
  · by_contra hfailed
    have hx : word16 ((fetched raw.1 fun _ => 0x00).val 0) ((fetched raw.1 fun _ => 0x00).val 1) =
        word16 ((fetched raw.1 fun _ => 0xFF).val 0) ((fetched raw.1 fun _ => 0xFF).val 1) :=
      congrArg (fun m => m.acc.x) hval
    rw [fetched_failed hfailed, fetched_failed hfailed] at hx
    exact absurd hx (by decide)
  · by_contra hfailed
    have ha : (AccelConfig.accelFsSel.get (fetchedByte acfg.1 0x00).val).setWidth 2 =
        (AccelConfig.accelFsSel.get (fetchedByte acfg.1 0xFF).val).setWidth 2 :=
      congrArg (fun m => m.fss.a) hval
    rw [fetchedByte_failed hfailed, fetchedByte_failed hfailed] at ha
    exact absurd ha (by decide)
  · by_contra hfailed
    have hg : (GyroConfig1.gyroFsSel.get (fetchedByte gcfg1.1 0x00).val).setWidth 2 =
        (GyroConfig1.gyroFsSel.get (fetchedByte gcfg1.1 0xFF).val).setWidth 2 :=
      congrArg (fun m => m.fss.g) hval
    rw [fetchedByte_failed hfailed, fetchedByte_failed hfailed] at hg
    exact absurd hg (by decide)

theorem same_getAgmt {agmt : Agmt} (h : dev.AnswersAgmt s) :
    Same dev (getAgmt (some agmt)) (getAgmt (some agmt)) s := by
  obtain ⟨hraw, hacfg, hgcfg1⟩ := h
  refine (Prog.alike_secret trivial).bind fun garbage garbage' s₀ hstate => ?_
  rw [hstate]
  refine (alike_executeR_answered hraw garbage garbage').bind fun r r' s₁ hr => ?_
  obtain ⟨rfl, rfl⟩ := hr
  refine alike_garbage fun acfgGarbage acfgGarbage' => ?_
  refine (alike_readByte_answered hacfg _ _).bind fun a a' s₂ ha => ?_
  obtain ⟨-, rfl, rfl⟩ := ha
  refine alike_garbage fun gcfg1Garbage gcfg1Garbage' => ?_
  refine (alike_readByte_answered hgcfg1 _ _).bind fun g g' s₃ hg => ?_
  obtain ⟨-, rfl, rfl⟩ := hg
  -- of the last read only the status is used
  refine alike_garbage fun acfg2Garbage acfg2Garbage' => ?_
  refine (alike_readByte _ acfg2Garbage acfg2Garbage').bind fun a2 a2' s₄ ha2 => ?_
  obtain ⟨r₀, -, rfl, rfl⟩ := ha2
  exact Prog.alike_pure rfl

theorem private_getAgmt_iff {agmt : Agmt} :
    Private dev (getAgmt (some agmt)) s ↔ dev.AnswersAgmt s :=
  ⟨answersAgmt_of_private, fun h => (same_getAgmt h).isPrivate⟩

end

/-! ## Calls -/

/-- What a call leaves in the structure that its caller points to. -/
inductive Output
  | nothing
  | intPin (read : Option Byte)
  | intEnables (read : Option IntEnables)
  | agmt (pagmt : Option Agmt)
  deriving DecidableEq

/-- The functions that go through local variables. -/
inductive LocalsCall
  | setFullScale (sensors : Sensors) (fss : Fss)
  | setDlpfCfg (sensors : Sensors) (cfg : Dlpcfg)
  | enableDlpf (sensors : Sensors) (enable : Bool)
  | setSampleMode (sensors : Sensors) (mode : BitVec 32)
  | sleep (on : Bool)
  | lowPower (on : Bool)
  | setClockSource (source : BitVec 32)
  | intEnable (write read : Option IntEnables)
  | intPinCfg (write read : Option Byte)
  | i2cMasterEnable (enable : Bool)
  | configurePeripheral (peripheral : Byte) (c : PeriphConfig)
  | enableFifo (enable : Bool)
  | resetFifo
  | getAgmt (pagmt : Option Agmt)

def statusOnly (p : Io Status) : Io (Status × Output) := do return (← p, .nothing)

def withOutput {α : Type} (output : α → Output) (p : Io (Read α)) : Io (Status × Output) := do
  let r ← p
  return (r.retval, output r.val)

def LocalsCall.run : LocalsCall → Io (Status × Output)
  | .setFullScale sensors fss => statusOnly (Imu.setFullScale sensors fss)
  | .setDlpfCfg sensors cfg => statusOnly (Imu.setDlpfCfg sensors cfg)
  | .enableDlpf sensors enable => statusOnly (Imu.enableDlpf sensors enable)
  | .setSampleMode sensors mode => statusOnly (Imu.setSampleMode sensors mode)
  | .sleep on => statusOnly (Imu.sleep on)
  | .lowPower on => statusOnly (Imu.lowPower on)
  | .setClockSource source => statusOnly (Imu.setClockSource source)
  | .intEnable write read => withOutput .intEnables (Imu.intEnable write read)
  | .intPinCfg write read => withOutput .intPin (Imu.intPinCfg write read)
  | .i2cMasterEnable enable => statusOnly (Imu.i2cMasterEnable enable)
  | .configurePeripheral peripheral c => statusOnly (i2cControllerConfigurePeripheral peripheral c)
  | .enableFifo enable => statusOnly (Imu.enableFifo enable)
  | .resetFifo => statusOnly Imu.resetFifo
  | .getAgmt pagmt => withOutput .agmt (Imu.getAgmt pagmt)

section
variable {σ : Type}

/-- The reads that the call does not check succeed. -/
def LocalsCall.Answered (dev : Linked σ) : LocalsCall → σ → Prop
  | .setFullScale sensors fss, s =>
    dev.AnswersBlocks sensors (AccelConfig.accelFsSel.set (fss.a.setWidth 8)) s
  | .setDlpfCfg sensors _, s => dev.AnswersBlocks sensors id s
  | .enableDlpf sensors _, s => dev.AnswersBlocks sensors id s
  | .getAgmt (some _), s => dev.AnswersAgmt s
  | _, _ => True

variable {dev : Linked σ} {s : σ}

theorem private_statusOnly_iff {p : Io Status} :
    Private dev (statusOnly p) s ↔ Private dev p s :=
  Prog.private_map_iff fun _ _ h => (Prod.mk.inj h).1

theorem private_withOutput_iff {α : Type} {output : α → Output}
    (houtput : Function.Injective output) {p : Io (Read α)} :
    Private dev (withOutput output p) s ↔ Private dev p s := by
  refine Prog.private_map_iff fun r r' h => ?_
  obtain ⟨hretval, hval⟩ := Prod.mk.inj h
  obtain ⟨retval, val⟩ := r
  obtain rfl : retval = r'.retval := hretval
  obtain rfl : val = r'.val := houtput hval
  rfl

end

/-- A local of which only one field is assigned still shows what it held. -/
theorem set_shows {f : BitField 8} (hrest : ¬ BitField.AgreeOn (~~~f.mask) 0x00 0xFF)
    (hmask : ~~~f.mask &&& f.mask = 0) (v : Byte) : f.set v 0x00 ≠ f.set v 0xFF := by
  intro h
  have hzeros := BitField.agreeOn_set f hmask v 0x00
  have hones := BitField.agreeOn_set f hmask v 0xFF
  rw [← h] at hones
  exact hrest (hzeros.symm.trans hones)

/-- The contents of the stack stay in the driver exactly when every read succeeds that the function
does not check. -/
theorem locals_private_iff {σ : Type} (dev : Linked σ) (call : LocalsCall) (s : σ) :
    Private dev call.run s ↔ call.Answered dev s := by
  have hsame {p : Io Status} (h : Same dev p p s) : Private dev (statusOnly p) s ↔ True :=
    iff_of_true (private_statusOnly_iff.mpr h.isPrivate) trivial
  have hid : (id 0x00 : Byte) ≠ id 0xFF := by decide
  cases call with
  | setFullScale sensors fss =>
    exact private_statusOnly_iff.trans <| private_forAccGyr_iff
      (set_shows (by decide) (by decide) _) (set_shows (by decide) (by decide) _)
  | setDlpfCfg sensors cfg =>
    exact private_statusOnly_iff.trans (private_forAccGyr_iff hid hid)
  | enableDlpf sensors enable =>
    exact private_statusOnly_iff.trans <| private_forAccGyr_iff hid
      (set_shows (by decide) (by decide) _)
  | setSampleMode sensors mode => exact hsame (same_setSampleMode sensors mode)
  | sleep on => exact hsame (same_updateReg _ _ _)
  | lowPower on => exact hsame (same_updateReg _ _ _)
  | setClockSource source => exact hsame (same_updateReg _ _ _)
  | intEnable write read =>
    have hinj : Function.Injective Output.intEnables := fun _ _ => Output.intEnables.inj
    exact (private_withOutput_iff hinj).trans
      (iff_of_true (same_intEnable write read).isPrivate trivial)
  | intPinCfg write read =>
    have hinj : Function.Injective Output.intPin := fun _ _ => Output.intPin.inj
    exact (private_withOutput_iff hinj).trans
      (iff_of_true (same_intPinCfg write read).isPrivate trivial)
  | i2cMasterEnable enable => exact hsame (same_i2cMasterEnable enable)
  | configurePeripheral peripheral c =>
    exact hsame (same_i2cControllerConfigurePeripheral peripheral c)
  | enableFifo enable => exact hsame (same_updateReg _ _ _)
  | resetFifo => exact hsame same_resetFifo
  | getAgmt pagmt =>
    have hinj : Function.Injective Output.agmt := fun _ _ => Output.agmt.inj
    refine (private_withOutput_iff hinj).trans ?_
    cases pagmt with
    | none => exact iff_of_true (Prog.alike_pure rfl).isPrivate trivial
    | some agmt => exact private_getAgmt_iff

/-- A bus on which every read fails and every write gets through. -/
def noReads : Linked Unit
  | .read _ _, s => (⟨Status.err, fun _ => 0⟩, s)
  | .write _ _, s => (Status.ok, s)
  | .uninit _, s => (fun _ => 0, s)
  | .spiOpen _ _, s => (0, s)

/-- The contents of the stack end up in `GYRO_CONFIG_1`. -/
theorem garbage_reaches_register :
    ¬ ∀ (σ : Type) (dev : Linked σ) (call : LocalsCall) (s : σ), Private dev call.run s := by
  intro h
  let call := LocalsCall.setDlpfCfg internalGyr ⟨0, 0⟩
  have hzeros := exec_filled noReads 0x00 call.run ()
  have hones := exec_filled noReads 0xFF call.run ()
  have hseen := (h Unit noReads call () _ _ _ _ _ _ hzeros hones).1
  exact absurd hseen (by decide)

end SimuSound.Imu
