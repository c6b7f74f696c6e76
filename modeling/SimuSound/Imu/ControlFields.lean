import SimuSound.Reasoning.Transition
import SimuSound.Imu.Fifo
import SimuSound.Imu.I2cMaster
import SimuSound.Imu.Power
import SimuSound.Imu.RegisterFile

/-!
# ControlFields — the fields of `PWR_MGMT_1` and `USER_CTRL`

Eight functions read, modify and write these two registers, and any access of theirs can fail.  A
field is what the last call for it that reached the register made it.
-/

namespace SimuSound.Imu

open Reasoning

/-! ## A device with failures and reset strobes -/

/-- The bits that the device may clear by itself. -/
def resetStrobes (a : BitVec 7) : Byte :=
  if a = addr agb0RegUserCtrl then
    UserCtrl.i2cMstRst.mask ||| UserCtrl.sramRst.mask ||| UserCtrl.dmpRst.mask
  else if a = addr agb0RegPwrMgmt1 then PwrMgmt1.deviceReset.mask
  else 0

/-- The register at `a` is as it was, except for strobes that have cleared. -/
def SettlesAt (a : BitVec 7) (regs regs' : RegFile) : Prop :=
  BitField.Kept (BitVec.allOnes 8) (resetStrobes a) (regs a) (regs' a)

/-- A successful access does what it asks for, a failed one nothing; strobes may clear at any
time. -/
def strobingDevice : Env RegFile BusEvent BusEvent.Resp := fun regs e r regs' =>
  ∃ stored, (if Good e r then Access regs e r stored else stored = regs) ∧
    ∀ a, SettlesAt a stored regs'

/-- The event writes to the register. -/
def BusEvent.writesTo (reg : Byte) : BusEvent → Bool
  | .write r _ => r = reg
  | .read _ _ | .uninit _ | .spiOpen _ _ => false

def BusEvent.isWrite : BusEvent → Bool
  | .write _ _ => true
  | .read _ _ | .uninit _ | .spiOpen _ _ => false

/-- A write to the register succeeded. -/
def Wrote {σ : Type} (reg : Byte) (tr : BusTrace σ) : Prop :=
  ∃ o ∈ tr, o.event.writesTo reg = true ∧ Good o.event o.resp

instance {σ : Type} (reg : Byte) (tr : BusTrace σ) : Decidable (Wrote reg tr) :=
  inferInstanceAs (Decidable (∃ o ∈ tr, _ ∧ _))

section
variable {σ : Type} {reg other : Byte} {a : BitVec 7} {regs regs₁ regs' : RegFile}

theorem settlesAt_refl (a : BitVec 7) (regs : RegFile) : SettlesAt a regs regs :=
  BitField.kept_refl _ _ _

theorem SettlesAt.trans (h : SettlesAt a regs regs₁) (h' : SettlesAt a regs₁ regs') :
    SettlesAt a regs regs' := BitField.Kept.trans h h'

theorem wrote_append {t₁ t₂ : BusTrace σ} : Wrote reg (t₁ ++ t₂) ↔ Wrote reg t₁ ∨ Wrote reg t₂ := by
  unfold Wrote
  simp only [List.mem_append, or_and_right, exists_or]

theorem not_wrote_nil : ¬ Wrote reg ([] : BusTrace σ) := by
  rintro ⟨o, ho, -⟩
  exact absurd ho List.not_mem_nil

theorem wrote_write {s : σ} {data : List Byte} {retval : Status} :
    Wrote reg ([⟨s, .write reg data, retval⟩] : BusTrace σ) ↔ retval = Status.ok := by
  constructor
  · rintro ⟨o, ho, -, hgood⟩
    rw [List.mem_singleton.mp ho] at hgood
    exact hgood
  · intro hok
    exact ⟨_, List.mem_singleton_self _, decide_eq_true rfl, hok⟩

/-- An access that is no successful write leaves every register as it was. -/
theorem strobingDevice_settles {e : BusEvent} {r : e.Resp} (he : e.isWrite = false ∨ ¬ Good e r)
    (h : strobingDevice regs e r regs') (a : BitVec 7) : SettlesAt a regs regs' := by
  obtain ⟨stored, hstored, hsettles⟩ := h
  -- reads and failed accesses store nothing
  have hregs : stored = regs := by
    by_cases hgood : Good e r
    · rw [if_pos hgood] at hstored
      cases e with
      | read reg len => exact hstored.1
      | write reg data => exact absurd hgood (he.resolve_left Bool.noConfusion)
      | uninit len => exact hstored
      | spiOpen csPin freq => exact hstored
    · rwa [if_neg hgood] at hstored
  rw [← hregs]
  exact hsettles a

/-- `b` is what the function saw in the register when it assigned its fields. -/
def Rewrites (reg : Byte) (assign : Byte → Byte) (tr : BusTrace RegFile) (regs regs' : RegFile) :
    Prop :=
  (Wrote reg tr → ∃ b,
    BitField.Kept (BitVec.allOnes 8) (resetStrobes (addr reg)) (regs.get reg) b ∧
      ∀ a, SettlesAt a (regs.set reg (assign b)) regs') ∧
  (¬ Wrote reg tr → ∀ a, SettlesAt a regs regs')

/-- Settling before a register is stored does not matter to what is stored. -/
theorem SettlesAt.set (h : ∀ a, SettlesAt a regs regs₁) (b : Byte) (a : BitVec 7) :
    SettlesAt a (regs.set reg b) (regs₁.set reg b) := by
  by_cases ha : a = addr reg
  · subst ha
    show BitField.Kept _ _ (Function.update regs _ b _) (Function.update regs₁ _ b _)
    rw [Function.update_self, Function.update_self]
    exact BitField.kept_refl _ _ _
  · show BitField.Kept _ _ (Function.update regs _ b _) (Function.update regs₁ _ b _)
    rw [Function.update_of_ne ha, Function.update_of_ne ha]
    exact h a

theorem strobing_readByte {dest : Byte} {tr : BusTrace RegFile} {r : Read Byte}
    (hport : isPort reg = false)
    (hexec : Prog.Exec strobingDevice (readByte reg dest) regs tr r regs') :
    (r.retval = Status.ok → r.val = regs.get reg) ∧ (∀ a, SettlesAt a regs regs') ∧
      ¬ Wrote other tr := by
  obtain ⟨answer, regs₃, t₁, hanswer, rfl, rfl, rfl, rfl⟩ := hexec
  refine ⟨fun hok => ?_, strobingDevice_settles (Or.inl rfl) hanswer, ?_⟩
  · have hgood : answer.retval = Status.ok := hok
    show (if answer.retval = Status.ok then answer.val else _) 0 = _
    rw [if_pos hgood]
    obtain ⟨stored, hstored, -⟩ := hanswer
    rw [if_pos (show Good (.read reg 1) answer from hgood)] at hstored
    rw [hstored.2 hport]
    exact congrArg regs (BitVec.add_zero _)
  · rintro ⟨o, ho, hwrite, -⟩
    rw [List.mem_singleton.mp ho] at hwrite
    exact Bool.noConfusion hwrite

theorem strobing_writeByte {b : Byte} {tr : BusTrace RegFile} {retval : Status}
    (hport : isPort reg = false)
    (hexec : Prog.Exec strobingDevice (writeByte reg b) regs tr retval regs') :
    (Wrote reg tr → ∀ a, SettlesAt a (regs.set reg b) regs') ∧
      (¬ Wrote reg tr → ∀ a, SettlesAt a regs regs') := by
  obtain ⟨hwrite, rfl⟩ := (Prog.exec_perform _ _ _ _ _ _).mp hexec
  rw [wrote_write]
  constructor
  · intro hok
    obtain ⟨stored, hstored, hsettles⟩ := hwrite
    rw [if_pos (show Good (.write reg [b]) retval from hok)] at hstored
    have hset : stored = if isPort reg then regs else regs.set reg b := hstored
    rw [hport] at hset
    rw [← show stored = regs.set reg b from hset]
    exact hsettles
  · intro hbad
    apply strobingDevice_settles (e := .write reg [b]) (r := retval) (Or.inr ?_) hwrite
    exact hbad

theorem rewrites_updateReg {bank : Byte} {assign : Byte → Byte} {tr : BusTrace RegFile}
    {retval : Status} (hport : isPort reg = false)
    (hexec : Prog.Exec strobingDevice (updateReg bank reg assign) regs tr retval regs') :
    Rewrites reg assign tr regs regs' := by
  obtain ⟨garbage, regs₁, t₁, hgarbage, rfl, hexec₁⟩ := hexec
  have h₁ := strobingDevice_settles (Or.inl rfl) hgarbage
  obtain ⟨r, regs₂, t₂, t₃, rfl, hread, hexec₂⟩ := exec_guardRead.mp hexec₁
  obtain ⟨hseen, hsettles, hread⟩ := strobing_readByte hport hread
  have h₂ (a : BitVec 7) : SettlesAt a regs regs₂ := (h₁ a).trans (hsettles a)
  -- the local variable and the read come first, so that only the last access can write
  have hcons : Wrote reg (⟨regs, .uninit 1, garbage⟩ :: (t₂ ++ t₃)) ↔ Wrote reg t₃ := by
    rw [← List.singleton_append, wrote_append, wrote_append, or_iff_right, or_iff_right hread]
    rintro ⟨o, ho, hwrite, -⟩
    rw [List.mem_singleton.mp ho] at hwrite
    exact Bool.noConfusion hwrite
  unfold Rewrites
  rw [hcons]
  by_cases hok : r.retval = Status.ok
  · rw [if_pos hok, hseen hok] at hexec₂
    obtain ⟨hwrote, hkept⟩ := strobing_writeByte hport hexec₂
    refine ⟨fun h => ⟨regs₁.get reg, h₁ (addr reg), fun a => ?_⟩, fun h a => ?_⟩
    · exact (SettlesAt.set h₂ _ a).trans (hwrote h a)
    · exact (h₂ a).trans (hkept h a)
  · -- the function returns without a write
    rw [if_neg hok] at hexec₂
    obtain ⟨rfl, -, rfl⟩ := hexec₂
    exact ⟨fun h => absurd h not_wrote_nil, fun _ => h₂⟩

end

/-! ## The eight functions -/

/-- The functions that write one of the two registers, with their arguments. -/
inductive ControlCall
  | sleep (on : Bool)
  | lowPower (on : Bool)
  | setClockSource (source : BitVec 32)
  | enableFifo (enable : Bool)
  | enableDmp (enable : Bool)
  | resetDmp
  | i2cMasterEnable (enable : Bool)
  | i2cMasterReset

namespace ControlCall

def run : ControlCall → Io Status
  | .sleep on => Imu.sleep on
  | .lowPower on => Imu.lowPower on
  | .setClockSource source => Imu.setClockSource source
  | .enableFifo enable => Imu.enableFifo enable
  | .enableDmp enable => Imu.enableDmp enable
  | .resetDmp => Imu.resetDmp
  | .i2cMasterEnable enable => Imu.i2cMasterEnable enable
  | .i2cMasterReset => Imu.i2cMasterReset

/-- The register that the function writes. -/
def reg : ControlCall → Byte
  | .sleep _ | .lowPower _ | .setClockSource _ => agb0RegPwrMgmt1
  | .enableFifo _ | .enableDmp _ | .resetDmp | .i2cMasterEnable _ | .i2cMasterReset =>
    agb0RegUserCtrl

/-- What it makes of the register. -/
def assign : ControlCall → Byte → Byte
  | .sleep on => PwrMgmt1.sleep.set (bit on)
  | .lowPower _ => id
  | .setClockSource source => PwrMgmt1.clksel.set (source.setWidth 8)
  | .enableFifo enable => UserCtrl.fifoEn.set (bit enable)
  | .enableDmp enable => UserCtrl.dmpEn.set (bit enable)
  | .resetDmp => UserCtrl.dmpRst.set 1
  | .i2cMasterEnable enable => UserCtrl.i2cMstEn.set (bit enable)
  | .i2cMasterReset => UserCtrl.i2cMstRst.set 1

end ControlCall

/-- The two shared registers. -/
def controlRegs : List Byte := [agb0RegPwrMgmt1, agb0RegUserCtrl]

/-- What a call does to the register at `reg`. -/
def CallRewrites (call : ControlCall) (reg : Byte) (tr : BusTrace RegFile) (regs regs' : RegFile) :
    Prop :=
  (reg = call.reg ∧ Wrote reg tr ∧ ∃ b,
    BitField.Kept (BitVec.allOnes 8) (resetStrobes (addr reg)) (regs.get reg) b ∧
      BitField.Kept (BitVec.allOnes 8) (resetStrobes (addr reg)) (call.assign b) (regs'.get reg)) ∨
  (¬ (reg = call.reg ∧ Wrote reg tr) ∧ SettlesAt (addr reg) regs regs')

section
variable {reg other : Byte} {regs regs₁ regs' : RegFile} {tr : BusTrace RegFile}

/-- An update of another register. -/
theorem Rewrites.settlesAt {assign : Byte → Byte} (h : Rewrites other assign tr regs regs')
    (hne : addr reg ≠ addr other) : SettlesAt (addr reg) regs regs' := by
  by_cases hwrote : Wrote other tr
  · obtain ⟨b, -, hsettles⟩ := h.1 hwrote
    have hreg := hsettles (addr reg)
    unfold SettlesAt at hreg
    rwa [show (regs.set other (assign b)) (addr reg) = regs (addr reg) from
      Function.update_of_ne hne _ _] at hreg
  · exact h.2 hwrote (addr reg)

theorem callRewrites_of_rewrites {call : ControlCall}
    (h : Rewrites call.reg call.assign tr regs regs')
    (hne : reg ≠ call.reg → addr reg ≠ addr call.reg) :
    CallRewrites call reg tr regs regs' := by
  by_cases hreg : reg = call.reg
  · subst hreg
    by_cases hwrote : Wrote call.reg tr
    · obtain ⟨b, hb, hsettles⟩ := h.1 hwrote
      refine Or.inl ⟨rfl, hwrote, b, hb, ?_⟩
      have hstored := hsettles (addr call.reg)
      unfold SettlesAt at hstored
      rwa [show (regs.set call.reg (call.assign b)) (addr call.reg) = call.assign b from
        Function.update_self _ _ _] at hstored
    · exact Or.inr ⟨fun hand => hwrote hand.2, h.2 hwrote (addr call.reg)⟩
  · exact Or.inr ⟨fun hand => hreg hand.1, h.settlesAt (hne hreg)⟩

theorem addr_ne_of_controlRegs {call : ControlCall} (hreg : reg ∈ controlRegs)
    (hne : reg ≠ call.reg) : addr reg ≠ addr call.reg := by
  have hcall : call.reg ∈ controlRegs := by
    cases call <;> simp [ControlCall.reg, controlRegs]
  -- the two registers are at different addresses
  have hdistinct : ∀ r₁ ∈ controlRegs, ∀ r₂ ∈ controlRegs, r₁ ≠ r₂ → addr r₁ ≠ addr r₂ := by
    decide
  exact hdistinct reg hreg call.reg hcall hne

theorem not_wrote_updateReg {σ : Type} {env : Env σ BusEvent BusEvent.Resp} {s s' : σ}
    {tr : BusTrace σ} {bank : Byte} {assign : Byte → Byte} {retval : Status} (hne : other ≠ reg)
    (hexec : Prog.Exec env (updateReg bank other assign) s tr retval s') : ¬ Wrote reg tr := by
  rintro ⟨o, ho, hwrite, -⟩
  have huses := uses_updateReg bank other assign (P := fun e => e.writesTo reg = false)
    (fun _ => rfl) rfl fun _ => decide_eq_false hne
  rw [huses.exec hexec o ho] at hwrite
  exact Bool.noConfusion hwrite

/-- Accesses before the update that leave the register alone. -/
theorem CallRewrites.after {call : ControlCall} {t₁ t₂ : BusTrace RegFile}
    (h : CallRewrites call reg t₂ regs₁ regs') (hsettles : SettlesAt (addr reg) regs regs₁)
    (hwrote : ¬ Wrote reg t₁) : CallRewrites call reg (t₁ ++ t₂) regs regs' := by
  unfold CallRewrites
  rw [wrote_append, or_iff_right hwrote]
  rcases h with ⟨hreg, hwrote', b, hb, hb'⟩ | ⟨hno, hkept⟩
  · exact Or.inl ⟨hreg, hwrote', b, BitField.Kept.trans hsettles hb, hb'⟩
  · exact Or.inr ⟨hno, hsettles.trans hkept⟩

theorem callRewrites_nil {call : ControlCall} : CallRewrites call reg [] regs regs :=
  Or.inr ⟨fun h => not_wrote_nil h.2, settlesAt_refl _ _⟩

/-- The preparation of `i2c_master_enable` does not touch the two registers. -/
theorem callRewrites_i2cMasterEnable {enable : Bool} {retval : Status} (hreg : reg ∈ controlRegs)
    (hexec : Prog.Exec strobingDevice (i2cMasterEnable enable) regs tr retval regs') :
    CallRewrites (.i2cMasterEnable enable) reg tr regs regs' := by
  have hprepare : addr reg ≠ addr agb0RegIntPinConfig ∧ addr reg ≠ addr agb3RegI2cMstCtrl := by
    have hdistinct : ∀ r ∈ controlRegs, addr r ≠ addr agb0RegIntPinConfig ∧
        addr r ≠ addr agb3RegI2cMstCtrl := by decide
    exact hdistinct reg hreg
  -- `INT_PIN_CFG`, `I2C_MST_CTRL` and `USER_CTRL`, returning at the first failure
  obtain ⟨hpin, hctrl⟩ := hprepare
  obtain ⟨r₁, regs₁, t₁, t₂, rfl, hpass, hexec₁⟩ := exec_guard.mp hexec
  have hsettles : SettlesAt (addr reg) regs regs₁ := (rewrites_updateReg rfl hpass).settlesAt hpin
  refine CallRewrites.after ?_ hsettles
    (not_wrote_updateReg (fun h => hpin (congrArg addr h.symm)) hpass)
  by_cases hr₁ : r₁ = Status.ok
  swap
  · rw [if_neg hr₁] at hexec₁
    rw [hexec₁.1, hexec₁.2.2]
    exact callRewrites_nil
  rw [if_pos hr₁] at hexec₁
  obtain ⟨r₂, regs₂, t₂, t₃, rfl, hclk, hexec₂⟩ := exec_guard.mp hexec₁
  have hsettles : SettlesAt (addr reg) regs₁ regs₂ := (rewrites_updateReg rfl hclk).settlesAt hctrl
  refine CallRewrites.after ?_ hsettles
    (not_wrote_updateReg (fun h => hctrl (congrArg addr h.symm)) hclk)
  by_cases hr₂ : r₂ = Status.ok
  swap
  · rw [if_neg hr₂] at hexec₂
    rw [hexec₂.1, hexec₂.2.2]
    exact callRewrites_nil
  rw [if_pos hr₂] at hexec₂
  have hrewrites : Rewrites agb0RegUserCtrl (ControlCall.i2cMasterEnable enable).assign t₃ regs₂
      regs' := rewrites_updateReg rfl hexec₂
  exact callRewrites_of_rewrites hrewrites (addr_ne_of_controlRegs hreg)

theorem callRewrites_run {call : ControlCall} {retval : Status} (hreg : reg ∈ controlRegs)
    (hexec : Prog.Exec strobingDevice call.run regs tr retval regs') :
    CallRewrites call reg tr regs regs' := by
  have hupdate {assign : Byte → Byte} (hassign : assign = call.assign)
      (hexec : Prog.Exec strobingDevice (updateReg 0 call.reg assign) regs tr retval regs') :
      CallRewrites call reg tr regs regs' := by
    subst hassign
    apply callRewrites_of_rewrites (rewrites_updateReg ?_ hexec) (addr_ne_of_controlRegs hreg)
    cases call <;> rfl
  cases call with
  | i2cMasterEnable enable => exact callRewrites_i2cMasterEnable hreg hexec
  | _ => exact hupdate rfl hexec

end

/-! ## Calls that do not fail -/

section
variable {σ : Type} {env : Env σ BusEvent BusEvent.Resp} {s s' : σ} {tr : BusTrace σ}
  {retval : Status}

theorem wrote_updateReg {bank reg : Byte} {assign : Byte → Byte}
    (hexec : Prog.Exec env (updateReg bank reg assign) s tr retval s') (hok : AllOk tr) :
    Wrote reg tr := by
  obtain ⟨garbage, s₁, t₁, -, rfl, hexec₁⟩ := hexec
  obtain ⟨r, s₂, t₂, t₃, rfl, hread, hexec₂⟩ := exec_guardRead.mp hexec₁
  obtain ⟨hok₂, hok₃⟩ := allOk_append t₂ t₃ |>.mp (allOk_cons _ _ |>.mp hok).2
  rw [if_pos ((succeeds_readByte reg (garbage 0)).exec hread hok₂)] at hexec₂
  obtain ⟨-, rfl⟩ := (Prog.exec_perform _ _ _ _ _ _).mp hexec₂
  have hwrote : Wrote reg [⟨s₂, .write reg [assign r.val], retval⟩] :=
    wrote_write.mpr (hok₃ _ List.mem_cons_self)
  rw [← List.singleton_append, wrote_append, wrote_append]
  exact Or.inr (Or.inr hwrote)

/-- A call none of whose accesses fails has written its register. -/
theorem wrote_run {call : ControlCall} (hexec : Prog.Exec env call.run s tr retval s')
    (hok : AllOk tr) : Wrote call.reg tr := by
  cases call with
  | i2cMasterEnable enable =>
    obtain ⟨s₁, t₁, t₂, rfl, -, hexec₁, -, hok₂⟩ :=
      exec_guard_good (succeeds_updateReg _ _ _) hexec hok
    obtain ⟨s₂, t₃, t₄, rfl, -, hexec₂, -, hok₄⟩ :=
      exec_guard_good (succeeds_updateReg _ _ _) hexec₁ hok₂
    rw [wrote_append, wrote_append]
    exact Or.inr (Or.inr (wrote_updateReg hexec₂ hok₄))
  | _ => exact wrote_updateReg hexec hok

end

/-! ## The fields -/

inductive ControlField
  | sleep
  | clksel
  | fifoEn
  | dmpEn
  | i2cMstEn
  deriving DecidableEq

namespace ControlField

def reg : ControlField → Byte
  | .sleep | .clksel => agb0RegPwrMgmt1
  | .fifoEn | .dmpEn | .i2cMstEn => agb0RegUserCtrl

def bits : ControlField → BitField 8
  | .sleep => PwrMgmt1.sleep
  | .clksel => PwrMgmt1.clksel
  | .fifoEn => UserCtrl.fifoEn
  | .dmpEn => UserCtrl.dmpEn
  | .i2cMstEn => UserCtrl.i2cMstEn

def read (f : ControlField) (regs : RegFile) : Byte := f.bits.get (regs.get f.reg)

end ControlField

/-- The field that a call is for and its argument, as a field of that width holds it. -/
def ControlCall.argument : ControlCall → Option (ControlField × Byte)
  | .sleep on => some (.sleep, bit on)
  | .setClockSource source => some (.clksel, (source.setWidth 3).setWidth 8)
  | .enableFifo enable => some (.fifoEn, bit enable)
  | .enableDmp enable => some (.dmpEn, bit enable)
  | .i2cMasterEnable enable => some (.i2cMstEn, bit enable)
  | .lowPower _ | .resetDmp | .i2cMasterReset => none

/-- What a call that writes the register makes of the field. -/
def ControlField.setTo (f : ControlField) (call : ControlCall) : Option Byte :=
  match call.argument with
  | some (g, v) => if g = f then some v else none
  | none => none

/-- The bits of a register that the calls are for. -/
def owned (reg : Byte) : Byte :=
  if reg = agb0RegUserCtrl then
    UserCtrl.fifoEn.mask ||| UserCtrl.dmpEn.mask ||| UserCtrl.i2cMstEn.mask |||
      UserCtrl.dmpRst.mask ||| UserCtrl.i2cMstRst.mask
  else PwrMgmt1.sleep.mask ||| PwrMgmt1.clksel.mask

theorem bit_and_one (b : Bool) : bit b &&& 1 = bit b := by
  cases b <;> rfl

theorem clksel_ones (source : BitVec 32) :
    source.setWidth 8 &&& PwrMgmt1.clksel.ones = ((source.setWidth 3).setWidth 8 : Byte) := by
  -- the field has three bits of the `uint8_t` that is assigned to it
  apply BitVec.eq_of_getLsbD_eq
  intro i hi
  rw [BitVec.getLsbD_and, BitField.getLsbD_ones, BitVec.getLsbD_setWidth, BitVec.getLsbD_setWidth,
    BitVec.getLsbD_setWidth, Bool.and_assoc, Bool.and_comm (source.getLsbD i)]
  rfl

/-- A field is assigned by the calls for it, and lies apart from what the others assign. -/
theorem get_assign {call : ControlCall} {f : ControlField} (hreg : f.reg = call.reg) (b : Byte) :
    f.bits.get (call.assign b) = (f.setTo call).getD (f.bits.get b) := by
  -- for each field: its own call, the others on the same register, and those on the other register
  have hregs : agb0RegPwrMgmt1 ≠ agb0RegUserCtrl := by decide
  cases f with
  | sleep =>
    cases call with
    | sleep on => exact (BitField.get_set _ _ _).trans (bit_and_one on)
    | lowPower on => rfl
    | setClockSource source =>
      exact BitField.get_set_of_apart PwrMgmt1.clksel PwrMgmt1.sleep (by decide) _ _
    | _ => exact absurd hreg hregs
  | clksel =>
    cases call with
    | sleep on => exact BitField.get_set_of_apart PwrMgmt1.sleep PwrMgmt1.clksel (by decide) _ _
    | lowPower on => rfl
    | setClockSource source => exact (BitField.get_set _ _ _).trans (clksel_ones source)
    | _ => exact absurd hreg hregs
  | fifoEn =>
    cases call with
    | enableFifo enable => exact (BitField.get_set _ _ _).trans (bit_and_one enable)
    | enableDmp enable =>
      exact BitField.get_set_of_apart UserCtrl.dmpEn UserCtrl.fifoEn (by decide) _ _
    | resetDmp => exact BitField.get_set_of_apart UserCtrl.dmpRst UserCtrl.fifoEn (by decide) _ _
    | i2cMasterEnable enable =>
      exact BitField.get_set_of_apart UserCtrl.i2cMstEn UserCtrl.fifoEn (by decide) _ _
    | i2cMasterReset =>
      exact BitField.get_set_of_apart UserCtrl.i2cMstRst UserCtrl.fifoEn (by decide) _ _
    | _ => exact absurd hreg hregs.symm
  | dmpEn =>
    cases call with
    | enableDmp enable => exact (BitField.get_set _ _ _).trans (bit_and_one enable)
    | enableFifo enable =>
      exact BitField.get_set_of_apart UserCtrl.fifoEn UserCtrl.dmpEn (by decide) _ _
    | resetDmp => exact BitField.get_set_of_apart UserCtrl.dmpRst UserCtrl.dmpEn (by decide) _ _
    | i2cMasterEnable enable =>
      exact BitField.get_set_of_apart UserCtrl.i2cMstEn UserCtrl.dmpEn (by decide) _ _
    | i2cMasterReset =>
      exact BitField.get_set_of_apart UserCtrl.i2cMstRst UserCtrl.dmpEn (by decide) _ _
    | _ => exact absurd hreg hregs.symm
  | i2cMstEn =>
    cases call with
    | i2cMasterEnable enable => exact (BitField.get_set _ _ _).trans (bit_and_one enable)
    | enableFifo enable =>
      exact BitField.get_set_of_apart UserCtrl.fifoEn UserCtrl.i2cMstEn (by decide) _ _
    | enableDmp enable =>
      exact BitField.get_set_of_apart UserCtrl.dmpEn UserCtrl.i2cMstEn (by decide) _ _
    | resetDmp => exact BitField.get_set_of_apart UserCtrl.dmpRst UserCtrl.i2cMstEn (by decide) _ _
    | i2cMasterReset =>
      exact BitField.get_set_of_apart UserCtrl.i2cMstRst UserCtrl.i2cMstEn (by decide) _ _
    | _ => exact absurd hreg hregs.symm

/-- A call for a field of the other register does not set it. -/
theorem setTo_of_ne {call : ControlCall} {f : ControlField} (hreg : f.reg ≠ call.reg) :
    f.setTo call = none := by
  unfold ControlField.setTo
  split
  · rename_i g v hargument
    apply if_neg
    rintro rfl
    apply hreg
    cases call <;> cases hargument <;> rfl
  · rfl

theorem kept_assign (call : ControlCall) (strobes b : Byte) :
    BitField.Kept (~~~ owned call.reg) strobes b (call.assign b) := by
  have hpwr : ~~~ owned agb0RegPwrMgmt1 &&& PwrMgmt1.sleep.mask = 0 ∧
      ~~~ owned agb0RegPwrMgmt1 &&& PwrMgmt1.clksel.mask = 0 := by decide
  have huser : ∀ f ∈ [UserCtrl.fifoEn, UserCtrl.dmpEn, UserCtrl.dmpRst, UserCtrl.i2cMstEn,
      UserCtrl.i2cMstRst], ~~~ owned agb0RegUserCtrl &&& f.mask = 0 := by decide
  cases call with
  | sleep on => exact BitField.kept_set _ hpwr.1 _ _ _
  | lowPower on => exact BitField.kept_refl _ _ _
  | setClockSource source => exact BitField.kept_set _ hpwr.2 _ _ _
  | _ => exact BitField.kept_set _ (huser _ (by simp)) _ _ _

/-! ## Runs -/

/-- A call and the accesses it made. -/
structure Called where
  call : ControlCall
  trace : BusTrace RegFile

/-- One call, whatever of it fails. -/
def controlStep (regs : RegFile) (x : Called) (regs' : RegFile) : Prop :=
  ∃ retval, Prog.Exec strobingDevice x.call.run regs x.trace retval regs'

/-- What the step sets the field to, if its call is for the field and reaches the register. -/
def ControlField.setBy (f : ControlField) (x : Step RegFile Called) : Option Byte :=
  if Wrote f.reg x.label.trace then f.setTo x.label.call else none

section
variable {regs regs' : RegFile} {x : Called} {reg : Byte}

/-- A field without strobes is what the call makes it. -/
theorem read_controlStep (f : ControlField) (hstep : controlStep regs x regs') :
    f.read regs' = if Wrote f.reg x.trace then (f.setTo x.call).getD (f.read regs)
      else f.read regs := by
  obtain ⟨retval, hexec⟩ := hstep
  have hreg : f.reg ∈ controlRegs := by
    cases f <;> simp [ControlField.reg, controlRegs]
  -- no field is among the strobes, so that settling does not touch it
  have hplain : f.bits.mask &&& resetStrobes (addr f.reg) = 0 := by
    cases f <;> decide
  have hget {a b : Byte} (h : BitField.Kept (BitVec.allOnes 8) (resetStrobes (addr f.reg)) a b) :
      f.bits.get b = f.bits.get a := h.get_eq f.bits BitVec.and_allOnes hplain
  rcases callRewrites_run hreg hexec with ⟨hcall, hwrote, b, hseen, hstored⟩ | ⟨hno, hkept⟩
  · rw [if_pos hwrote]
    calc f.read regs' = f.bits.get (x.call.assign b) := hget hstored
      _ = (f.setTo x.call).getD (f.bits.get b) := get_assign hcall b
      _ = (f.setTo x.call).getD (f.read regs) := by rw [hget hseen]; rfl
  · have hsame : f.read regs' = f.read regs := hget hkept
    split
    · rename_i hwrote
      rw [setTo_of_ne fun hcall => hno ⟨hcall, hwrote⟩, hsame]
      rfl
    · exact hsame

theorem kept_controlStep (hreg : reg ∈ controlRegs) (hstep : controlStep regs x regs') :
    BitField.Kept (~~~ owned reg) (resetStrobes (addr reg)) (regs.get reg) (regs'.get reg) := by
  obtain ⟨retval, hexec⟩ := hstep
  rcases callRewrites_run hreg hexec with ⟨hcall, -, b, hseen, hstored⟩ | ⟨-, hkept⟩
  · have hassign := kept_assign x.call (resetStrobes (addr reg)) b
    rw [← hcall] at hassign
    exact ((hseen.of_allOnes _).trans hassign).trans (hstored.of_allOnes _)
  · exact hkept.of_allOnes _

theorem settlesAt_controlStep (hreg : reg ∈ controlRegs) (hwrote : ¬ Wrote reg x.trace)
    (hstep : controlStep regs x regs') : SettlesAt (addr reg) regs regs' := by
  obtain ⟨retval, hexec⟩ := hstep
  rcases callRewrites_run hreg hexec with ⟨-, hwrote', -⟩ | ⟨-, hkept⟩
  · exact absurd hwrote' hwrote
  · exact hkept

end

/-- Whatever fails and in whatever order the functions are called: every field holds the argument of
the last call for it that reached the register, a call that does not reach the register leaves it as
it was, and so does every call the bits that are nobody's.  A call that does not fail reaches it. -/
theorem last_writer_wins {regs regs' : RegFile} {tr : List (Step RegFile Called)}
    (hrun : Run controlStep regs tr regs') :
    (∀ f : ControlField, f.read regs' = lastSet f.setBy tr (f.read regs)) ∧
      (∀ x ∈ tr, ∀ reg ∈ controlRegs, ¬ Wrote reg x.label.trace →
        SettlesAt (addr reg) x.pre x.post) ∧
      (∀ reg ∈ controlRegs, BitField.Kept (~~~ owned reg) (resetStrobes (addr reg)) (regs.get reg)
        (regs'.get reg)) ∧
      ∀ x ∈ tr, AllOk x.label.trace → Wrote x.label.call.reg x.label.trace := by
  refine ⟨fun f => ?_, fun x hx reg hreg hwrote => ?_, fun reg hreg => ?_, fun x hx hok => ?_⟩
  · apply hrun.lastSet
    intro x _ hstep
    rw [read_controlStep f hstep]
    unfold ControlField.setBy
    split <;> rfl
  · exact settlesAt_controlStep hreg hwrote (hrun.step_mem x hx)
  · have hinv := @Run.invariant _ _ _ (fun mid =>
      BitField.Kept (~~~ owned reg) (resetStrobes (addr reg)) (regs.get reg) (mid.get reg))
      _ _ _ hrun (BitField.kept_refl _ _ _)
      fun x _ hpre hstep => hpre.trans (kept_controlStep hreg hstep)
    exact hinv.1
  · obtain ⟨retval, hexec⟩ := hrun.step_mem x hx
    exact wrote_run hexec hok

/-- Registers on which the writes to one of them fail. -/
def registersExcept (reg : Byte) : Handler RegFile BusEvent BusEvent.Resp
  | .read r len, regs => registers (.read r len) regs
  | .write r data, regs => if r = reg then (Status.err, regs) else registers (.write r data) regs
  | .uninit len, regs => registers (.uninit len) regs
  | .spiOpen csPin freq, regs => registers (.spiOpen csPin freq) regs

theorem strobingDevice_registersExcept (reg : Byte) (regs : RegFile) (e : BusEvent) (r : e.Resp)
    (regs' : RegFile) (h : (registersExcept reg).env regs e r regs') :
    strobingDevice regs e r regs' := by
  have hflat (hres : registersExcept reg e regs = registers e regs) :
      strobingDevice regs e r regs' := by
    obtain ⟨rfl, rfl⟩ := Handler.answer_eq h
    rw [hres]
    obtain ⟨hgood, haccess⟩ := flatDevice_registers regs e
    exact ⟨_, by rwa [if_pos hgood], fun a => settlesAt_refl a _⟩
  cases e with
  | read r len => exact hflat rfl
  | write r' data =>
    by_cases hreg : r' = reg
    · obtain ⟨hr, hregs⟩ := Handler.answer_eq h
      have herr : registersExcept reg (.write r' data) regs = (Status.err, regs) := if_pos hreg
      rw [herr] at hr hregs
      refine ⟨regs, ?_, fun a => by rw [hregs]; exact settlesAt_refl a regs⟩
      rw [if_neg]
      rw [hr]
      exact show ¬ Status.err = Status.ok by decide
    · exact hflat (if_neg hreg)
  | uninit len => exact hflat rfl
  | spiOpen csPin freq => exact hflat rfl

/-- A call on such registers. -/
def calledExcept (reg : Byte) (call : ControlCall) (regs : RegFile) : Step RegFile Called :=
  ⟨regs, ⟨call, Prog.trace (registersExcept reg) call.run regs⟩,
    (Prog.run (registersExcept reg) call.run regs).2⟩

theorem controlStep_calledExcept (reg : Byte) (call : ControlCall) (regs : RegFile) :
    controlStep regs (calledExcept reg call regs).label (calledExcept reg call regs).post :=
  ⟨_, (Prog.exec_run (registersExcept reg) call.run regs).mono
    (strobingDevice_registersExcept reg)⟩

/-- The chip cannot be put to sleep, and the DMP is enabled. -/
theorem last_writer_wins_two :
    let regs : RegFile := fun _ => 0
    let x := calledExcept agb0RegPwrMgmt1 (.sleep true) regs
    let y := calledExcept agb0RegPwrMgmt1 (.enableDmp true) x.post
    ControlField.sleep.read y.post = 0 ∧ ControlField.dmpEn.read y.post = 1 := by
  intro regs x y
  have hrun : Run controlStep regs [x, y] y.post :=
    ⟨rfl, controlStep_calledExcept _ _ _, rfl, controlStep_calledExcept _ _ _, rfl⟩
  obtain ⟨hfields, -⟩ := last_writer_wins hrun
  rw [hfields .sleep, hfields .dmpEn]
  decide

end SimuSound.Imu
