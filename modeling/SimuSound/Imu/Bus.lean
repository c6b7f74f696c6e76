import SimuSound.Reasoning.ErrorReporting
import SimuSound.Imu.Registers

/-!
# Bus — the serial interface under the driver

Every function of the driver talks to the device through `ICM_20948_execute_r` and
`ICM_20948_execute_w`, which call whatever serial interface is linked.  A local variable that is
read before it is assigned holds whatever the stack held, so its contents are an answer from outside
too.
-/

namespace SimuSound.Imu

open Reasoning

-- indices of one-byte accesses and of the locals of `int_enable`
scoped instance (priority := high) neZeroOne : NeZero 1 := ⟨Nat.succ_ne_zero 0⟩
scoped instance (priority := high) neZeroTwo : NeZero 2 := ⟨Nat.succ_ne_zero 1⟩
scoped instance (priority := high) neZeroFour : NeZero 4 := ⟨Nat.succ_ne_zero 3⟩

/-- `ICM_20948_Status_e`.  The driver combines results with `|` and compares them with `>`. -/
abbrev Status := BitVec 32

namespace Status
def ok : Status := 0x00
def err : Status := 0x01
def notImpl : Status := 0x02
def paramErr : Status := 0x03
def wrongID : Status := 0x04
def invalSensor : Status := 0x05
def noData : Status := 0x06
def sensorNotSupported : Status := 0x07
def dmpNotSupported : Status := 0x08
def dmpVerifyFail : Status := 0x09
def fifoNoDataAvail : Status := 0x0A
def fifoIncompleteData : Status := 0x0B
def fifoMoreDataAvail : Status := 0x0C
def unrecognisedDMPHeader : Status := 0x0D
def unrecognisedDMPHeader2 : Status := 0x0E
def invalDMPRegister : Status := 0x0F
end Status

@[simp] theorem Status.or_eq_ok (a b : Status) :
    a ||| b = Status.ok ↔ a = Status.ok ∧ b = Status.ok :=
  BitVec.or_eq_zero_iff

/-- A status together with what was read. -/
structure Read (α : Type) where
  retval : Status
  val : α

/-- A call of the linked serial interface, the contents of an uninitialised local variable, and the
`spiOpen` of `begin`. -/
inductive BusEvent
  | read (reg : Byte) (len : Nat)
  | write (reg : Byte) (data : List Byte)
  | uninit (len : Nat)
  | spiOpen (csPin : Byte) (freq : BitVec 32)

@[reducible] def BusEvent.Resp : BusEvent → Type
  | .read _ len => Read (Fin len → Byte)
  | .write _ _ => Status
  | .uninit len => Fin len → Byte
  | .spiOpen _ _ => Int

/-- The register that a bus access starts at. -/
def BusEvent.reg : BusEvent → Option Byte
  | .read reg _ | .write reg _ => some reg
  | .uninit _ | .spiOpen _ _ => none

/-- Code that uses the bus and nothing of the device structure. -/
abbrev Io := Prog BusEvent BusEvent.Resp

/-- `ICM_20948_execute_r`: a failed read leaves the destination as it was. -/
def executeR (reg : Byte) {len : Nat} (dest : Fin len → Byte) : Io (Read (Fin len → Byte)) := do
  let r ← (Prog.perform (BusEvent.read reg len) : Io (Read (Fin len → Byte)))
  pure ⟨r.retval, if r.retval = Status.ok then r.val else dest⟩

def executeW (reg : Byte) (data : List Byte) : Io Status := Prog.perform (BusEvent.write reg data)

def uninit (len : Nat) : Io (Fin len → Byte) := Prog.perform (BusEvent.uninit len)

/-- A one-byte local variable that is not initialised. -/
def uninitByte : Io Byte := do
  let garbage ← uninit 1
  pure (garbage 0)

def readByte (reg dest : Byte) : Io (Read Byte) := do
  let r ← executeR reg (fun _ : Fin 1 => dest)
  pure ⟨r.retval, r.val 0⟩

def writeByte (reg b : Byte) : Io Status := executeW reg [b]

/-- `ICM_20948_set_bank`: the ICM-20689 has no banks. -/
def setBank (_bank : Byte) : Io Status := pure Status.ok

/-- The contents a `bool` gives a one-bit field. -/
def bit (b : Bool) : Byte := if b then 1 else 0

/-- A one-bit field read as a `bool`. -/
def flag (f : BitField 8) (b : Byte) : Bool := f.get b ≠ 0

/-- `((uint16_t)hi << 8) | lo` -/
def word16 (hi lo : Byte) : BitVec 16 := hi ++ lo

/-- Read a register into an uninitialised local, assign some of its fields and write it back,
returning early when the bank, the read or the write fails. -/
def updateReg (bank reg : Byte) (assign : Byte → Byte) : Io Status := do
  let garbage ← uninitByte
  let retval ← setBank bank
  if retval ≠ Status.ok then return retval
  let r ← readByte reg garbage
  if r.retval ≠ Status.ok then return r.retval
  writeByte reg (assign r.val)

/-- The same with the three results combined by `|=`, whatever the read returned. -/
def updateRegOr (bank reg : Byte) (assign : Byte → Byte) : Io Status := do
  let garbage ← uninitByte
  let retval ← setBank bank
  let r ← readByte reg garbage
  let written ← writeByte reg (assign r.val)
  pure (retval ||| r.retval ||| written)

/-! ## Early returns -/

section
variable {σ τ α β : Type} {env : Env σ BusEvent BusEvent.Resp} {s s' : σ}
  {tr : List (Obs σ BusEvent BusEvent.Resp)} {a : α} {t t' : τ}

/-- A step whose result carries a status, and an early return on that status. -/
theorem exec_guardOn (status : β → Status) {p : Io β} {fail : β → α} {q : β → Io α} :
    Prog.Exec env (p >>= fun r =>
        if status r ≠ Status.ok then pure (fail r) else q r) s tr a s' ↔
      ∃ r s₁ t₁ t₂, tr = t₁ ++ t₂ ∧ Prog.Exec env p s t₁ r s₁ ∧
        if status r = Status.ok then Prog.Exec env (q r) s₁ t₂ a s'
        else t₂ = [] ∧ a = fail r ∧ s' = s₁ := by
  simp only [Prog.exec_bind, ite_not]
  refine exists_congr fun r => exists_congr fun s₁ => exists_congr fun t₁ =>
    exists_congr fun t₂ => and_congr_right fun _ => and_congr_right fun _ => ?_
  split
  · exact Iff.rfl
  · exact Prog.exec_pure _ _ _ _ _ _

/-- `if (retval != ICM_20948_Stat_Ok) return fail(retval);` either ends the function or goes on. -/
theorem exec_guard {p : Io Status} {fail : Status → α} {q : Status → Io α} :
    Prog.Exec env (p >>= fun retval =>
        if retval ≠ Status.ok then pure (fail retval) else q retval) s tr a s' ↔
      ∃ retval s₁ t₁ t₂, tr = t₁ ++ t₂ ∧ Prog.Exec env p s t₁ retval s₁ ∧
        if retval = Status.ok then Prog.Exec env (q retval) s₁ t₂ a s'
        else t₂ = [] ∧ a = fail retval ∧ s' = s₁ := exec_guardOn fun retval => retval

/-- The same for a step that also reads a value. -/
theorem exec_guardRead {p : Io (Read β)} {fail : Read β → α} {q : Read β → Io α} :
    Prog.Exec env (p >>= fun r =>
        if r.retval ≠ Status.ok then pure (fail r) else q r) s tr a s' ↔
      ∃ r s₁ t₁ t₂, tr = t₁ ++ t₂ ∧ Prog.Exec env p s t₁ r s₁ ∧
        if r.retval = Status.ok then Prog.Exec env (q r) s₁ t₂ a s'
        else t₂ = [] ∧ a = fail r ∧ s' = s₁ := exec_guardOn Read.retval

/-- When a guarded sequence ends in `Ok`, so did its first step. -/
theorem exec_guard_ok {p : Io Status} {q : Status → Io Status}
    (hexec : Prog.Exec env (p >>= fun retval => if retval ≠ Status.ok then pure retval
      else q retval) s tr Status.ok s') :
    ∃ s₁ t₁ t₂, Prog.Exec env p s t₁ Status.ok s₁ ∧
      Prog.Exec env (q Status.ok) s₁ t₂ Status.ok s' := by
  obtain ⟨retval, s₁, t₁, t₂, -, hp, hq⟩ := exec_guard.mp hexec
  by_cases hok : retval = Status.ok
  · rw [if_pos hok] at hq
    rw [hok] at hp hq
    exact ⟨s₁, t₁, t₂, hp, hq⟩
  · rw [if_neg hok] at hq
    exact absurd hq.2.1.symm hok

/-- The same for code with a state of its own. -/
theorem exec_guardM {p : StateT τ Io Status} {fail : Status → α} {q : Status → StateT τ Io α} :
    Prog.Exec env ((p >>= fun retval =>
        if retval ≠ Status.ok then pure (fail retval) else q retval).run t) s tr (a, t') s' ↔
      ∃ retval tₘ s₁ t₁ t₂, tr = t₁ ++ t₂ ∧ Prog.Exec env (p.run t) s t₁ (retval, tₘ) s₁ ∧
        if retval = Status.ok then Prog.Exec env ((q retval).run tₘ) s₁ t₂ (a, t') s'
        else t₂ = [] ∧ a = fail retval ∧ t' = tₘ ∧ s' = s₁ := by
  simp only [StateT.run_bind, Prog.exec_bind, Prod.exists, ite_not]
  refine exists_congr fun retval => exists_congr fun tₘ => exists_congr fun s₁ =>
    exists_congr fun t₁ => exists_congr fun t₂ => and_congr_right fun _ =>
      and_congr_right fun _ => ?_
  split
  · exact Iff.rfl
  · exact Prog.exec_pureM

end

/-! ## Failures -/

/-- The access succeeded; only bus accesses can fail. -/
def Good : (e : BusEvent) → e.Resp → Prop
  | .read _ _, r => r.retval = Status.ok
  | .write _ _, (retval : Status) => retval = Status.ok
  | .uninit _, _ => True
  | .spiOpen _ _, _ => True

instance : (e : BusEvent) → (r : e.Resp) → Decidable (Good e r)
  | .read _ _, r => inferInstanceAs (Decidable (r.retval = Status.ok))
  | .write _ _, (retval : Status) => inferInstanceAs (Decidable (retval = Status.ok))
  | .uninit _, _ => .isTrue trivial
  | .spiOpen _ _, _ => .isTrue trivial

abbrev BusTrace (σ : Type) := List (Obs σ BusEvent BusEvent.Resp)

/-- Every bus access of the trace succeeded. -/
abbrev AllOk {σ : Type} (tr : BusTrace σ) : Prop := Prog.AllGood Good tr

instance {σ : Type} (tr : BusTrace σ) : Decidable (AllOk tr) :=
  inferInstanceAs (Decidable (∀ o ∈ tr, Good o.event o.resp))

@[simp] theorem allOk_nil {σ : Type} : AllOk ([] : BusTrace σ) := Prog.allGood_nil

@[simp] theorem allOk_cons {σ : Type} (o : Obs σ BusEvent BusEvent.Resp) (tr : BusTrace σ) :
    AllOk (o :: tr) ↔ Good o.event o.resp ∧ AllOk tr := Prog.allGood_cons o tr

@[simp] theorem allOk_append {σ : Type} (t₁ t₂ : BusTrace σ) :
    AllOk (t₁ ++ t₂) ↔ AllOk t₁ ∧ AllOk t₂ := Prog.allGood_append t₁ t₂

/-- A result of `Ok` means that every access made succeeded. -/
abbrev ReportsStatus (p : Io Status) : Prop := p.Reports Good (· = Status.ok)

theorem reports_executeR (reg : Byte) {len : Nat} (dest : Fin len → Byte) :
    (executeR reg dest).Reports Good (fun r => r.retval = Status.ok) :=
  fun _ => ⟨fun _ => trivial, fun hbad hsucc => hbad hsucc⟩

theorem reports_readByte (reg dest : Byte) :
    (readByte reg dest).Reports Good (fun r => r.retval = Status.ok) :=
  (reports_executeR reg _).bind (fun _ => trivial) fun _ hbad => hbad

theorem reports_executeW (reg : Byte) (data : List Byte) : ReportsStatus (executeW reg data) :=
  Prog.reports_perform _ fun _ h => h

theorem reports_writeByte (reg b : Byte) : ReportsStatus (writeByte reg b) := reports_executeW reg _

theorem reports_uninitByte (succ : Byte → Prop) : uninitByte.Reports Good succ :=
  fun _ => ⟨fun _ => trivial, fun hbad => absurd trivial hbad⟩

/-- Code that returns at the first failure of a step. -/
theorem ReportsStatus.guard {p : Io Status} {q : Status → Io Status} (hp : ReportsStatus p)
    (hq : ReportsStatus (q Status.ok)) :
    ReportsStatus (p >>= fun retval => if retval ≠ Status.ok then pure retval else q retval) := by
  refine hp.bind (fun retval => ?_) fun retval hbad => ?_
  · by_cases hret : retval = Status.ok
    · rw [if_neg (not_not_intro hret), hret]
      exact hq
    · rw [if_pos hret]
      trivial
  · rw [if_pos hbad]
    exact hbad

/-- The same for a step that also reads a value. -/
theorem ReportsStatus.guardRead {α : Type} {p : Io (Read α)} {q : Read α → Io Status}
    (hp : p.Reports Good fun r => r.retval = Status.ok) (hq : ∀ r, ReportsStatus (q r)) :
    ReportsStatus (p >>= fun r => if r.retval ≠ Status.ok then pure r.retval else q r) := by
  refine hp.bind (fun r => ?_) fun r hbad => ?_
  · by_cases hret : r.retval = Status.ok
    · rw [if_neg (not_not_intro hret)]
      exact hq r
    · rw [if_pos hret]
      trivial
  · rw [if_pos hbad]
    exact hbad

/-- A local variable that is not initialised cannot fail. -/
theorem ReportsStatus.garbage {q : Byte → Io Status} (hq : ∀ g, ReportsStatus (q g)) :
    ReportsStatus (uninitByte >>= q) :=
  (reports_uninitByte fun _ => True).bind hq fun _ h => absurd trivial h

theorem reports_updateReg (bank reg : Byte) (assign : Byte → Byte) :
    ReportsStatus (updateReg bank reg assign) :=
  .garbage fun garbage => .guard trivial <|
    .guardRead (reports_readByte reg garbage) fun _ => reports_writeByte reg _

/-- A result that is combined with others is still reported. -/
theorem ReportsStatus.orInto {p : Io Status} {f : Status → Status} (hp : ReportsStatus p)
    (hf : ∀ retval, f retval = Status.ok → retval = Status.ok) :
    ReportsStatus (p >>= fun retval => pure (f retval)) :=
  hp.bind (fun _ => trivial) fun retval hbad hok => hbad (hf retval hok)

theorem reports_updateRegOr (bank reg : Byte) (assign : Byte → Byte) :
    ReportsStatus (updateRegOr bank reg assign) := by
  refine .garbage fun garbage => (reports_readByte reg garbage).bind (fun r => ?_) fun r hbad => ?_
  · refine (reports_writeByte _ _).orInto fun written hok => ?_
    exact ((Status.or_eq_ok _ _).mp hok).2
  · rw [Prog.ends_bind]
    refine Prog.ends_of_forall (fun written hok => hbad ?_) _
    exact ((Status.or_eq_ok _ _).mp ((Status.or_eq_ok _ _).mp hok).1).2

/-- When every access succeeds the result is `Ok`. -/
abbrev SucceedsOk (p : Io Status) : Prop := p.Succeeds Good (· = Status.ok)

theorem succeeds_readByte (reg dest : Byte) :
    (readByte reg dest).Succeeds Good (fun r => r.retval = Status.ok) := fun _ hgood => hgood

theorem succeeds_executeW (reg : Byte) (data : List Byte) : SucceedsOk (executeW reg data) :=
  fun _ hgood => hgood

theorem succeeds_writeByte (reg b : Byte) : SucceedsOk (writeByte reg b) := succeeds_executeW reg _

theorem SucceedsOk.guard {p : Io Status} {q : Status → Io Status} (hp : SucceedsOk p)
    (hq : SucceedsOk (q Status.ok)) :
    SucceedsOk (p >>= fun retval => if retval ≠ Status.ok then pure retval else q retval) := by
  refine hp.bind fun retval hret => ?_
  rw [if_neg (not_not_intro hret), hret]
  exact hq

theorem succeeds_guardRead {α β : Type} {succ : β → Prop} {p : Io (Read α)} {fail : Read α → β}
    {q : Read α → Io β} (hp : p.Succeeds Good fun r => r.retval = Status.ok)
    (hq : ∀ r, r.retval = Status.ok → (q r).Succeeds Good succ) :
    (p >>= fun r => if r.retval ≠ Status.ok then pure (fail r) else q r).Succeeds Good succ := by
  refine hp.bind fun r hret => ?_
  rw [if_neg (not_not_intro hret)]
  exact hq r hret

theorem SucceedsOk.guardRead {α : Type} {p : Io (Read α)} {q : Read α → Io Status}
    (hp : p.Succeeds Good fun r => r.retval = Status.ok) (hq : ∀ r, SucceedsOk (q r)) :
    SucceedsOk (p >>= fun r => if r.retval ≠ Status.ok then pure r.retval else q r) :=
  succeeds_guardRead hp fun r _ => hq r

theorem succeeds_garbage {α : Type} {succ : α → Prop} {q : Byte → Io α}
    (hq : ∀ garbage, (q garbage).Succeeds Good succ) : (uninitByte >>= q).Succeeds Good succ :=
  fun garbage _ => hq (garbage 0)

/-- A result of `Ok` means neither more nor less than that every access succeeded. -/
theorem ReportsStatus.ok_iff {p : Io Status} (hp : ReportsStatus p) (hp' : SucceedsOk p) {σ : Type}
    {env : Env σ BusEvent BusEvent.Resp} {s s' : σ} {tr : BusTrace σ} {retval : Status}
    (hexec : Prog.Exec env p s tr retval s') : retval = Status.ok ↔ AllOk tr :=
  ⟨hp.exec hexec, hp'.exec hexec⟩

theorem succeeds_updateReg (bank reg : Byte) (assign : Byte → Byte) :
    SucceedsOk (updateReg bank reg assign) := fun _ _ =>
  SucceedsOk.guard rfl <| .guardRead (succeeds_readByte reg _) fun _ => succeeds_writeByte reg _

theorem succeeds_updateRegOr (bank reg : Byte) (assign : Byte → Byte) :
    SucceedsOk (updateRegOr bank reg assign) := by
  refine fun _ _ => (succeeds_readByte reg _).bind fun r hr => ?_
  refine (succeeds_writeByte reg (assign r.val)).bind fun written hwritten => ?_
  exact (Status.or_eq_ok _ _).mpr ⟨(Status.or_eq_ok _ _).mpr ⟨rfl, hr⟩, hwritten⟩

/-- When every access succeeds, a guarded step does not end the function. -/
theorem exec_guard_good {σ α : Type} {env : Env σ BusEvent BusEvent.Resp} {s s' : σ}
    {tr : BusTrace σ} {a : α} {p : Io Status} {fail : Status → α} {q : Status → Io α}
    (hp : SucceedsOk p)
    (hexec : Prog.Exec env (p >>= fun retval =>
      if retval ≠ Status.ok then pure (fail retval) else q retval) s tr a s')
    (hok : AllOk tr) :
    ∃ s₁ t₁ t₂, tr = t₁ ++ t₂ ∧ Prog.Exec env p s t₁ Status.ok s₁ ∧
      Prog.Exec env (q Status.ok) s₁ t₂ a s' ∧ AllOk t₁ ∧ AllOk t₂ := by
  obtain ⟨retval, s₁, t₁, t₂, rfl, hstep, hrest⟩ := exec_guard.mp hexec
  obtain ⟨hok₁, hok₂⟩ := allOk_append t₁ t₂ |>.mp hok
  obtain rfl : retval = Status.ok := hp.exec hstep hok₁
  rw [if_pos rfl] at hrest
  exact ⟨s₁, t₁, t₂, rfl, hstep, hrest, hok₁, hok₂⟩

section
variable {P : BusEvent → Prop} {α β : Type}

theorem uses_guard {p : Io Status} {fail : Status → α} {q : Status → Io α} (hp : p.Uses P)
    (hq : ∀ retval, (q retval).Uses P) :
    (p >>= fun retval => if retval ≠ Status.ok then pure (fail retval) else q retval).Uses P :=
  hp.bind fun retval => .ite trivial (hq retval)

theorem uses_guardRead {p : Io (Read α)} {fail : Read α → β} {q : Read α → Io β}
    (hp : p.Uses P) (hq : ∀ r, (q r).Uses P) :
    (p >>= fun r => if r.retval ≠ Status.ok then pure (fail r) else q r).Uses P :=
  hp.bind fun r => .ite trivial (hq r)

end

/-- All accesses of `updateReg` are to its register. -/
theorem uses_updateReg (bank reg : Byte) (assign : Byte → Byte) {P : BusEvent → Prop}
    (huninit : ∀ len, P (.uninit len)) (hread : P (.read reg 1))
    (hwrite : ∀ b, P (.write reg [b])) : (updateReg bank reg assign).Uses P := by
  have hgarbage : uninitByte.Uses P := ⟨huninit 1, fun _ => trivial⟩
  refine hgarbage.bind fun garbage => uses_guard trivial fun _ => ?_
  exact uses_guardRead ⟨hread, fun _ => trivial⟩ fun r => ⟨hwrite _, fun _ => trivial⟩

end SimuSound.Imu
