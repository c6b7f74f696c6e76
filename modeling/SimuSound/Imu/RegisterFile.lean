import SimuSound.Imu.Sensors
import Mathlib.Logic.Function.Basic

/-!
# RegisterFile — the device as one flat file of registers

Seven address bits go on the wire.  A burst moves on to the next register after every byte, except
at the two ports `MEM_R_W` and `FIFO_R_W`, behind which other memory lies.
-/

namespace SimuSound.Imu

open Reasoning

abbrev RegFile := BitVec 7 → Byte

def addr (reg : Byte) : BitVec 7 := reg.setWidth 7

def isPort (reg : Byte) : Bool := addr reg = addr agb0RegMemRW || addr reg = addr agb0RegFifoRW

namespace RegFile

def get (regs : RegFile) (reg : Byte) : Byte := regs (addr reg)

def set (regs : RegFile) (reg b : Byte) : RegFile := Function.update regs (addr reg) b

/-- A burst of reads from address `a`. -/
def load (regs : RegFile) (a : BitVec 7) (len : Nat) : Fin len → Byte :=
  fun i => regs (a + BitVec.ofNat 7 i)

/-- A burst of writes from address `a`. -/
def store (regs : RegFile) (a : BitVec 7) : List Byte → RegFile
  | [] => regs
  | b :: data => store (Function.update regs a b) (a + 1) data

@[simp] theorem get_set (regs : RegFile) (reg b : Byte) : (regs.set reg b).get reg = b :=
  Function.update_self _ _ _

theorem get_set_of_ne (regs : RegFile) {reg other : Byte} (h : addr other ≠ addr reg) (b : Byte) :
    (regs.set reg b).get other = regs.get other := Function.update_of_ne h _ _

/-- Two names of one register. -/
theorem get_set_of_eq (regs : RegFile) {reg other : Byte} (h : addr other = addr reg) (b : Byte) :
    (regs.set reg b).get other = b := by
  rw [get, h]
  exact get_set regs reg b

@[simp] theorem set_get (regs : RegFile) (reg : Byte) : regs.set reg (regs.get reg) = regs :=
  Function.update_eq_self _ _

theorem store_of_ne (regs : RegFile) (a a' : BitVec 7) (data : List Byte)
    (h : ∀ i < data.length, a' ≠ a + BitVec.ofNat 7 i) : regs.store a data a' = regs a' := by
  induction data generalizing regs a with
  | nil => rfl
  | cons b data ih =>
    have hhead : a' ≠ a := by simpa using h 0 (Nat.zero_lt_succ _)
    rw [store, ih, Function.update_of_ne hhead]
    intro i hi heq
    refine h (i + 1) (Nat.succ_lt_succ hi) ?_
    rw [heq, BitVec.ofNat_add, BitVec.add_assoc]
    exact congrArg (a + ·) (BitVec.add_comm _ _)

end RegFile

/-- What a successful access that asks for nothing special does to the registers. -/
def Access (regs : RegFile) : (e : BusEvent) → e.Resp → RegFile → Prop
  | .read reg len, r, regs' =>
    regs' = regs ∧ (isPort reg = false → r.val = regs.load (addr reg) len)
  | .write reg data, _, regs' =>
    regs' = if isPort reg then regs else regs.store (addr reg) data
  | .uninit _, _, regs' => regs' = regs
  | .spiOpen _ _, _, regs' => regs' = regs

/-- A device whose successful accesses read and store registers, for the accesses that are
`plain`. -/
def Stores (env : Env RegFile BusEvent BusEvent.Resp) (plain : BusEvent → Prop) : Prop :=
  ∀ regs e r regs', env regs e r regs' → Good e r → plain e → Access regs e r regs'

/-- The device when no access fails. -/
def flatDevice : Env RegFile BusEvent BusEvent.Resp :=
  fun regs e r regs' => Good e r ∧ Access regs e r regs'

/-- The same as a device that a program can be run on. -/
def registers : Handler RegFile BusEvent BusEvent.Resp
  | .read reg len, regs => (⟨Status.ok, regs.load (addr reg) len⟩, regs)
  | .write reg data, regs => (Status.ok, if isPort reg then regs else regs.store (addr reg) data)
  | .uninit _, regs => (fun _ => 0, regs)
  | .spiOpen _ _, regs => ((0 : Int), regs)

theorem flatDevice_registers (regs : RegFile) (e : BusEvent) :
    flatDevice regs e (registers e regs).1 (registers e regs).2 := by
  cases e with
  | read reg len => exact ⟨rfl, rfl, fun _ => rfl⟩
  | write reg data => exact ⟨rfl, rfl⟩
  | uninit len => exact ⟨trivial, rfl⟩
  | spiOpen csPin freq => exact ⟨trivial, rfl⟩

theorem exec_registers {α : Type} (p : Io α) (regs : RegFile) :
    Prog.Exec flatDevice p regs (Prog.trace registers p regs) (Prog.run registers p regs).1
      (Prog.run registers p regs).2 :=
  (Prog.exec_run registers p regs).mono fun s e r s' (h : registers e s = (r, s')) => by
    have hflat := flatDevice_registers s e
    rwa [h] at hflat

theorem stores_flatDevice : Stores flatDevice fun _ => True := fun _ _ _ _ h _ _ => h.2

theorem allOk_flatDevice {α : Type} {p : Io α} {regs regs' : RegFile} {tr : BusTrace RegFile}
    {a : α} (hexec : Prog.Exec flatDevice p regs tr a regs') : AllOk tr := by
  induction p generalizing regs tr with
  | ret b =>
    obtain ⟨rfl, -, -⟩ := hexec
    exact allOk_nil
  | act e k ih =>
    obtain ⟨r, regs₁, tr₁, henv, rfl, hk⟩ := hexec
    exact (allOk_cons _ _).mpr ⟨henv.1, ih r hk⟩

/-! ## Reading and updating one register -/

/-- What the accesses of a read, modify and write amount to when they all succeed. -/
def Updated {σ : Type} (env : Env σ BusEvent BusEvent.Resp) (reg : Byte) (assign : Byte → Byte)
    (s s' : σ) : Prop :=
  ∃ (garbage : Fin 1 → Byte) (s₁ : σ) (r : Read (Fin 1 → Byte)) (s₂ : σ),
    env s (.uninit 1) garbage s₁ ∧ env s₁ (.read reg 1) r s₂ ∧ r.retval = Status.ok ∧
      env s₂ (.write reg [assign (r.val 0)]) Status.ok s'

section
variable {σ : Type} {env : Env σ BusEvent BusEvent.Resp} {s s' : σ} {tr : BusTrace σ} {reg : Byte}

theorem exec_readByte_ok {dest : Byte} {r : Read Byte}
    (hexec : Prog.Exec env (readByte reg dest) s tr r s') (hok : r.retval = Status.ok) :
    ∃ answer : Read (Fin 1 → Byte), env s (.read reg 1) answer s' ∧ answer.retval = Status.ok ∧
      r.val = answer.val 0 ∧ tr = [⟨s, .read reg 1, answer⟩] := by
  obtain ⟨answer, s₁, t₁, henv, rfl, rfl, rfl, rfl⟩ := hexec
  have hanswer : answer.retval = Status.ok := hok
  refine ⟨answer, henv, hanswer, ?_, rfl⟩
  change (if answer.retval = Status.ok then answer.val else _) 0 = _
  rw [if_pos hanswer]

theorem exec_updateReg_ok {bank : Byte} {assign : Byte → Byte} {retval : Status}
    (hexec : Prog.Exec env (updateReg bank reg assign) s tr retval s') (hok : retval = Status.ok) :
    Updated env reg assign s s' := by
  obtain ⟨garbage, s₁, t₁, henv, rfl, hexec₁⟩ := hexec
  change Prog.Exec env (readByte reg (garbage 0) >>= fun r => if r.retval ≠ Status.ok
    then pure r.retval else writeByte reg (assign r.val)) _ _ _ _ at hexec₁
  obtain ⟨r, s₂, t₂, t₃, rfl, hread, hexec₂⟩ := (Prog.exec_bind _ _ _ _ _ _ _).mp hexec₁
  by_cases hr : r.retval = Status.ok
  · rw [if_neg (not_not_intro hr)] at hexec₂
    obtain ⟨answer, hanswer, hansok, hval, -⟩ := exec_readByte_ok hread hr
    obtain ⟨hwrite, -⟩ := (Prog.exec_perform _ _ _ _ _ _).mp hexec₂
    rw [hval, hok] at hwrite
    exact ⟨garbage, s₁, answer, s₂, henv, hanswer, hansok, hwrite⟩
  · rw [if_pos hr] at hexec₂
    obtain ⟨-, rfl, -⟩ := hexec₂
    exact absurd hok hr

theorem exec_updateRegOr_ok {bank : Byte} {assign : Byte → Byte} {retval : Status}
    (hexec : Prog.Exec env (updateRegOr bank reg assign) s tr retval s')
    (hok : retval = Status.ok) : Updated env reg assign s s' := by
  obtain ⟨garbage, s₁, t₁, henv, rfl, hexec₁⟩ := hexec
  change Prog.Exec env (readByte reg (garbage 0) >>= fun r =>
    writeByte reg (assign r.val) >>= fun written =>
      pure (Status.ok ||| r.retval ||| written)) _ _ _ _ at hexec₁
  obtain ⟨r, s₂, t₂, t₃, rfl, hread, hexec₂⟩ := (Prog.exec_bind _ _ _ _ _ _ _).mp hexec₁
  obtain ⟨written, s₃, t₄, t₅, rfl, hwrite, -, rfl, rfl⟩ :=
    (Prog.exec_bind _ _ _ _ _ _ _).mp hexec₂
  obtain ⟨hreadOk, hwritten⟩ := (Status.or_eq_ok _ _).mp hok
  have hr : r.retval = Status.ok := ((Status.or_eq_ok _ _).mp hreadOk).2
  obtain ⟨answer, hanswer, hansok, hval, -⟩ := exec_readByte_ok hread hr
  obtain ⟨hwrote, -⟩ := (Prog.exec_perform _ _ _ _ _ _).mp hwrite
  rw [hval, hwritten] at hwrote
  exact ⟨garbage, s₁, answer, s₂, henv, hanswer, hansok, hwrote⟩

end

/-- On a device of registers it replaces its register and nothing else. -/
theorem Stores.updated {env : Env RegFile BusEvent BusEvent.Resp} {plain : BusEvent → Prop}
    (h : Stores env plain) {reg : Byte} (hport : isPort reg = false) {assign : Byte → Byte}
    (huninit : plain (.uninit 1)) (hread : plain (.read reg 1)) {regs regs' : RegFile}
    (hwrite : plain (.write reg [assign (regs.get reg)]))
    (hup : Updated env reg assign regs regs') :
    regs' = regs.set reg (assign (regs.get reg)) := by
  obtain ⟨garbage, regs₁, r, regs₂, hgarbage, hr, hrok, hw⟩ := hup
  have hregs₁ : regs₁ = regs := h _ _ _ _ hgarbage trivial huninit
  obtain ⟨hregs₂, hval⟩ := h _ _ _ _ hr hrok hread
  have hload : r.val 0 = regs.get reg := by
    rw [hval hport, hregs₁]
    exact congrArg regs (BitVec.add_zero _)
  rw [hload, hregs₂, hregs₁] at hw
  have hstore : regs' =
      if isPort reg then regs else regs.store (addr reg) [assign (regs.get reg)] :=
    h _ _ _ _ hw rfl hwrite
  rw [hstore, hport]
  rfl

/-! ## The flat device -/

section
variable {regs regs' : RegFile} {tr : BusTrace RegFile} {reg : Byte}

theorem flat_readByte (hport : isPort reg = false) {dest : Byte} {r : Read Byte}
    (hexec : Prog.Exec flatDevice (readByte reg dest) regs tr r regs') :
    r = ⟨Status.ok, regs.get reg⟩ ∧ regs' = regs := by
  have hok : r.retval = Status.ok :=
    (succeeds_readByte reg dest).exec hexec (allOk_flatDevice hexec)
  obtain ⟨answer, ⟨-, hregs, hanswer⟩, -, hval, -⟩ := exec_readByte_ok hexec hok
  have hload : r.val = regs.get reg := by
    rw [hval, hanswer hport]
    exact congrArg regs (BitVec.add_zero _)
  exact ⟨by rw [← hok, ← hload], hregs⟩

theorem flat_writeByte (hport : isPort reg = false) {b : Byte} {retval : Status}
    (hexec : Prog.Exec flatDevice (writeByte reg b) regs tr retval regs') :
    retval = Status.ok ∧ regs' = regs.set reg b := by
  obtain ⟨⟨hok, haccess⟩, -⟩ := (Prog.exec_perform _ _ _ _ _ _).mp hexec
  refine ⟨hok, ?_⟩
  have hstore : regs' = if isPort reg then regs else regs.store (addr reg) [b] := haccess
  rw [hstore, hport]
  rfl

theorem flat_updateReg (hport : isPort reg = false) {bank : Byte} {assign : Byte → Byte}
    {retval : Status}
    (hexec : Prog.Exec flatDevice (updateReg bank reg assign) regs tr retval regs') :
    retval = Status.ok ∧ regs' = regs.set reg (assign (regs.get reg)) := by
  have hok := (succeeds_updateReg bank reg assign).exec hexec (allOk_flatDevice hexec)
  exact ⟨hok, stores_flatDevice.updated hport trivial trivial trivial (exec_updateReg_ok hexec hok)⟩

theorem flat_updateRegOr (hport : isPort reg = false) {bank : Byte} {assign : Byte → Byte}
    {retval : Status}
    (hexec : Prog.Exec flatDevice (updateRegOr bank reg assign) regs tr retval regs') :
    retval = Status.ok ∧ regs' = regs.set reg (assign (regs.get reg)) := by
  have hok := (succeeds_updateRegOr bank reg assign).exec hexec (allOk_flatDevice hexec)
  exact ⟨hok,
    stores_flatDevice.updated hport trivial trivial trivial (exec_updateRegOr_ok hexec hok)⟩

end

/-! ## The configuration registers of the sensors -/

/-- The register is rewritten if the sensor is named. -/
def rewriteReg (sensors mask : Sensors) (reg : Byte) (assign : Byte → Byte) (regs : RegFile) :
    RegFile :=
  if sensors.has mask then regs.set reg (assign (regs.get reg)) else regs

def rewriteAccGyr (sensors : Sensors) (accel gyro : Byte → Byte) (regs : RegFile) : RegFile :=
  rewriteReg sensors internalGyr agb2RegGyroConfig1 gyro
    (rewriteReg sensors internalAcc agb2RegAccelConfig accel regs)

theorem get_rewriteReg (sensors mask : Sensors) (reg : Byte) (assign : Byte → Byte)
    (regs : RegFile) : (rewriteReg sensors mask reg assign regs).get reg =
      if sensors.has mask then assign (regs.get reg) else regs.get reg := by
  unfold rewriteReg
  split
  · exact RegFile.get_set _ _ _
  · rfl

theorem get_rewriteReg_of_ne (sensors mask : Sensors) {reg other : Byte} (h : addr other ≠ addr reg)
    (assign : Byte → Byte) (regs : RegFile) :
    (rewriteReg sensors mask reg assign regs).get other = regs.get other := by
  unfold rewriteReg
  split
  · exact RegFile.get_set_of_ne _ h _
  · rfl

theorem rewriteReg_id (sensors mask : Sensors) (reg : Byte) (regs : RegFile) :
    rewriteReg sensors mask reg id regs = regs := by
  unfold rewriteReg
  rw [id, RegFile.set_get, ite_self]

section
variable {env : Env RegFile BusEvent BusEvent.Resp} {plain : BusEvent → Prop} {sensors : Sensors}
  {regs regs' : RegFile} {tr : BusTrace RegFile}

theorem Stores.block (h : Stores env plain) {mask : Sensors} {reg : Byte} {assign : Byte → Byte}
    (hport : isPort reg = false) (huninit : plain (.uninit 1)) (hread : plain (.read reg 1))
    (hwrite : ∀ b, plain (.write reg [b]))
    (hexec : Prog.Exec env (sensors.block mask (updateRegOr 2 reg assign)) regs tr Status.ok
      regs') :
    regs' = rewriteReg sensors mask reg assign regs := by
  unfold Sensors.block at hexec
  unfold rewriteReg
  by_cases hsel : sensors.has mask = true
  · rw [if_pos hsel] at hexec ⊢
    exact h.updated hport huninit hread (hwrite _) (exec_updateRegOr_ok hexec rfl)
  · rw [if_neg hsel] at hexec ⊢
    exact hexec.2.2

end

/-- The block of a sensor that is named does what the code in it does. -/
theorem flat_block {sensors mask : Sensors} {p : Io Status} {f : RegFile → RegFile}
    (hp : ∀ regs tr retval regs', Prog.Exec flatDevice p regs tr retval regs' → regs' = f regs)
    {regs regs' : RegFile} {tr : BusTrace RegFile} {retval : Status}
    (hexec : Prog.Exec flatDevice (sensors.block mask p) regs tr retval regs') :
    regs' = if sensors.has mask then f regs else regs := by
  unfold Sensors.block at hexec
  by_cases hsel : sensors.has mask = true
  · rw [if_pos hsel] at hexec ⊢
    exact hp _ _ _ _ hexec
  · rw [if_neg hsel] at hexec ⊢
    exact hexec.2.2

theorem flat_forAccGyr {sensors : Sensors} {accel gyro : Byte → Byte} {regs regs' : RegFile}
    {tr : BusTrace RegFile} {retval : Status}
    (hexec : Prog.Exec flatDevice (forAccGyr sensors (updateRegOr 2 agb2RegAccelConfig accel)
      (updateRegOr 2 agb2RegGyroConfig1 gyro)) regs tr retval regs') :
    regs' = rewriteAccGyr sensors accel gyro regs := by
  obtain ⟨retval₁, regs₁, t₁, retval₂, t₂, hacc, hgyr, -, -⟩ := exec_forAccGyr hexec
  have hregs₁ := flat_block (fun _ _ _ _ h => (flat_updateRegOr rfl h).2) hacc
  have hregs' := flat_block (fun _ _ _ _ h => (flat_updateRegOr rfl h).2) hgyr
  rw [hregs', hregs₁]
  rfl

/-! ## Registers that a program does not write -/

/-- The access writes no byte at `a`. -/
def Untouched (a : BitVec 7) : BusEvent → Prop
  | .write reg data => isPort reg = false → ∀ i < data.length, a ≠ addr reg + BitVec.ofNat 7 i
  | .read _ _ | .uninit _ | .spiOpen _ _ => True

theorem untouched_writeByte {a : BitVec 7} {reg : Byte} (h : a ≠ addr reg) (b : Byte) :
    Untouched a (.write reg [b]) := by
  intro _ i hi
  obtain rfl : i = 0 := Nat.lt_one_iff.mp hi
  rwa [BitVec.add_zero]

theorem untouched_port (a : BitVec 7) {reg : Byte} (h : isPort reg = true) (data : List Byte) :
    Untouched a (.write reg data) := fun hport => absurd (h.symm.trans hport) (by decide)

theorem flatDevice_untouched {a : BitVec 7} {regs : RegFile} {e : BusEvent} {r : e.Resp}
    {regs' : RegFile} (he : Untouched a e) (hdev : flatDevice regs e r regs') :
    regs' a = regs a := by
  cases e with
  | read reg len => rw [hdev.2.1]
  | write reg data =>
    have hstore : regs' = if isPort reg then regs else regs.store (addr reg) data := hdev.2
    rw [hstore]
    by_cases hport : isPort reg = true
    · rw [if_pos hport]
    · rw [if_neg hport]
      exact RegFile.store_of_ne regs _ _ _ (he (Bool.not_eq_true _ ▸ hport))
  | uninit len => rw [hdev.2]
  | spiOpen csPin freq => rw [hdev.2]

/-- A program that writes no byte at `a` leaves that register alone. -/
theorem flat_of_untouched {a : BitVec 7} {α : Type} {p : Io α} (huses : p.Uses (Untouched a))
    {regs regs' : RegFile} {tr : BusTrace RegFile} {x : α}
    (hexec : Prog.Exec flatDevice p regs tr x regs') : regs' a = regs a := by
  have hstep (regs₁ : RegFile) (e : BusEvent) (r : e.Resp) (regs₂ : RegFile) (he : Untouched a e)
      (hdev : flatDevice regs₁ e r regs₂) (hinv : regs₁ a = regs a) : regs₂ a = regs a :=
    (flatDevice_untouched he hdev).trans hinv
  exact Prog.Exec.preserves hstep huses hexec rfl

end SimuSound.Imu
