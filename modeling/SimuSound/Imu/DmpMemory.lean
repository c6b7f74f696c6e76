import SimuSound.Imu.Power

/-!
# DmpMemory — the device structure and the DMP's memory

DMP memory is banked: the high byte of an address goes to `MEM_BANK_SEL`, the low byte to
`MEM_START_ADDR`, and the bytes through `MEM_R_W`.  The driver remembers the last bank it selected.
-/

namespace SimuSound.Imu

open Reasoning

/-- `ICM_20948_Device_t`, less the link to the serial interface and `_last_bank`, which only the
disabled body of `set_bank` used. -/
structure Device where
  dmpFirmwareAvailable : Bool
  firmwareLoaded : Bool
  lastMemsBank : Byte
  gyroSF : BitVec 32
  gyroSFpll : Byte
  enabledAndroid0 : BitVec 32
  enabledAndroid1 : BitVec 32
  enabledAndroidIntr0 : BitVec 32
  enabledAndroidIntr1 : BitVec 32
  dataOutCtl1 : BitVec 16
  dataOutCtl2 : BitVec 16
  dataRdyStatus : BitVec 16
  motionEventCtl : BitVec 16
  dataIntrCtl : BitVec 16
  deriving DecidableEq

/-- The check that begins the DMP's functions does not stop them where the DMP is there. -/
theorem not_eq_false_of_avail {pdev : Device} (havail : pdev.dmpFirmwareAvailable = true) :
    ¬ pdev.dmpFirmwareAvailable = false := by
  rw [havail]
  decide

/-- Code that also reads or writes the device structure. -/
abbrev Drv := StateT Device Io

/-- A call whose result is dropped. -/
def callIo {α : Type} (p : Io α) : Drv PUnit := do let _ ← p
def callDrv {α : Type} (p : Drv α) : Drv PUnit := do let _ ← p

section
variable {σ α : Type} {env : Env σ BusEvent BusEvent.Resp} {pdev pdev' : Device} {s s' : σ}
  {tr : BusTrace σ} {x : PUnit}

theorem exec_callIo {p : Io α} : Prog.Exec env ((callIo p).run pdev) s tr (x, pdev') s' ↔
    (∃ a, Prog.Exec env p s tr a s') ∧ pdev' = pdev := by
  unfold callIo
  rw [StateT.run_bind, Prog.exec_bind]
  constructor
  · rintro ⟨⟨a, pdev₁⟩, s₁, t₁, t₂, rfl, hlift, rfl, hret, rfl⟩
    obtain ⟨hp, rfl⟩ := (Prog.exec_lift _ _ _ _ _ _ _ _).mp hlift
    exact ⟨⟨a, (List.append_nil t₁).symm ▸ hp⟩, (Prod.mk.inj hret).2⟩
  · rintro ⟨⟨a, hp⟩, rfl⟩
    exact ⟨(a, pdev'), s', tr, [], (List.append_nil tr).symm,
      (Prog.exec_lift _ _ _ _ _ _ _ _).mpr ⟨hp, rfl⟩, rfl, rfl, rfl⟩

theorem exec_callDrv {p : Drv α} : Prog.Exec env ((callDrv p).run pdev) s tr (x, pdev') s' ↔
    ∃ a, Prog.Exec env (p.run pdev) s tr (a, pdev') s' := by
  unfold callDrv
  rw [StateT.run_bind, Prog.exec_bind]
  constructor
  · rintro ⟨⟨a, pdev₁⟩, s₁, t₁, t₂, rfl, hp, rfl, hret, rfl⟩
    obtain ⟨-, rfl⟩ := Prod.mk.inj hret
    exact ⟨a, (List.append_nil t₁).symm ▸ hp⟩
  · rintro ⟨a, hp⟩
    exact ⟨(a, pdev'), s', tr, [], (List.append_nil tr).symm, hp, rfl, rfl, rfl⟩

/-- A guarded step of code that returns `Ok`. -/
theorem exec_guardM_ok {p : Drv Status} {q : Status → Drv Status} :
    Prog.Exec env ((p >>= fun retval => if retval ≠ Status.ok then pure retval
        else q retval).run pdev) s tr (Status.ok, pdev') s' ↔
      ∃ pdev₁ s₁ t₁ t₂, tr = t₁ ++ t₂ ∧ Prog.Exec env (p.run pdev) s t₁ (Status.ok, pdev₁) s₁ ∧
        Prog.Exec env ((q Status.ok).run pdev₁) s₁ t₂ (Status.ok, pdev') s' := by
  rw [exec_guardM]
  constructor
  · rintro ⟨retval, pdev₁, s₁, t₁, t₂, htr, hp, hq⟩
    by_cases hok : retval = Status.ok
    · subst hok
      rw [if_pos rfl] at hq
      exact ⟨pdev₁, s₁, t₁, t₂, htr, hp, hq⟩
    · rw [if_neg hok] at hq
      exact absurd hq.2.1.symm hok
  · rintro ⟨pdev₁, s₁, t₁, t₂, htr, hp, hq⟩
    refine ⟨Status.ok, pdev₁, s₁, t₁, t₂, htr, hp, ?_⟩
    rwa [if_pos rfl]

theorem exec_lift_ok {p : Io Status} {q : Status → Drv Status} :
    Prog.Exec env ((liftM p >>= fun retval => if retval ≠ Status.ok then pure retval
        else q retval : Drv Status).run pdev) s tr (Status.ok, pdev') s' ↔
      ∃ s₁ t₁ t₂, tr = t₁ ++ t₂ ∧ Prog.Exec env p s t₁ Status.ok s₁ ∧
        Prog.Exec env ((q Status.ok).run pdev) s₁ t₂ (Status.ok, pdev') s' := by
  rw [exec_guardM_ok]
  constructor
  · rintro ⟨pdev₁, s₁, t₁, t₂, htr, hlift, hq⟩
    obtain ⟨hp, rfl⟩ := (Prog.exec_lift _ _ _ _ _ _ _ _).mp hlift
    exact ⟨s₁, t₁, t₂, htr, hp, hq⟩
  · rintro ⟨s₁, t₁, t₂, htr, hp, hq⟩
    exact ⟨pdev, s₁, t₁, t₂, htr, (Prog.exec_lift _ _ _ _ _ _ _ _).mpr ⟨hp, rfl⟩, hq⟩

end

def invMaxSerialRead : Nat := 16
def invMaxSerialWrite : Nat := 16

def hiByte (w : BitVec 16) : Byte := (w >>> 8).setWidth 8
def loByte (w : BitVec 16) : Byte := (w &&& 0xff).setWidth 8

/-- Selects the bank of `reg`, unless the driver remembers having selected it. -/
def selectMemsBank (reg : BitVec 16) : Drv Status := do
  let lBankSelected := hiByte reg
  let pdev ← get
  if lBankSelected ≠ pdev.lastMemsBank then
    -- before it is known whether the select succeeds
    modify fun pdev => { pdev with lastMemsBank := lBankSelected }
    writeByte agb0RegMemBankSel lBankSelected
  else
    pure Status.ok

theorem exec_selectMemsBank {σ : Type} (env : Env σ BusEvent BusEvent.Resp) (reg : BitVec 16)
    (pdev : Device) (s : σ) (tr : BusTrace σ) (retval : Status) (pdev' : Device) (s' : σ) :
    Prog.Exec env ((selectMemsBank reg).run pdev) s tr (retval, pdev') s' ↔
      if hiByte reg ≠ pdev.lastMemsBank then
        env s (.write agb0RegMemBankSel [hiByte reg]) retval s' ∧
          tr = [⟨s, .write agb0RegMemBankSel [hiByte reg], retval⟩] ∧
          pdev' = { pdev with lastMemsBank := hiByte reg }
      else tr = [] ∧ retval = Status.ok ∧ pdev' = pdev ∧ s' = s := by
  change Prog.Exec env ((ite (hiByte reg ≠ pdev.lastMemsBank) _ _ : Drv Status).run pdev) s tr
    (retval, pdev') s' ↔ _
  by_cases hbank : hiByte reg ≠ pdev.lastMemsBank
  · rw [if_pos hbank, if_pos hbank]
    change Prog.Exec env ((liftM (writeByte _ _) : Drv Status).run
      { pdev with lastMemsBank := hiByte reg }) s tr (retval, pdev') s' ↔ _
    rw [Prog.exec_lift, writeByte, executeW, Prog.exec_perform, and_assoc]
  · rw [if_neg hbank, if_neg hbank]
    exact Prog.exec_pureM

/-- The loop of `write_mems` over the bytes still to write; every turn moves at least one. -/
def writeMemsLoop : Nat → BitVec 16 → List Byte → Io Status
  | 0, _, _ => pure Status.ok
  | _ + 1, _, [] => pure Status.ok
  | fuel + 1, reg, data => do
    let result ← writeByte agb0RegMemStartAddr (loByte reg)
    if result ≠ Status.ok then return result
    let chunk := data.take invMaxSerialWrite
    let result ← executeW agb0RegMemRW chunk
    if result ≠ Status.ok then return result
    writeMemsLoop fuel (reg + BitVec.ofNat 16 chunk.length) (data.drop invMaxSerialWrite)

/-- The loop only sets the start address and moves bytes through the port. -/
theorem uses_writeMemsLoop {P : BusEvent → Prop} (hstart : ∀ b, P (.write agb0RegMemStartAddr [b]))
    (hport : ∀ chunk, P (.write agb0RegMemRW chunk)) (fuel : Nat) (reg : BitVec 16)
    (data : List Byte) : (writeMemsLoop fuel reg data).Uses P := by
  induction fuel generalizing reg data with
  | zero => trivial
  | succ fuel ih =>
    cases data with
    | nil => trivial
    | cons b data =>
      refine uses_guard ⟨hstart _, fun _ => trivial⟩ fun _ => ?_
      exact uses_guard ⟨hport _, fun _ => trivial⟩ fun _ => ih _ _

/-- `length` is the length of the list; a `NULL` pointer is `none`. -/
def writeMems (reg : BitVec 16) (data : Option (List Byte)) : Drv Status := do
  match data with
  | none => return Status.noData
  | some data =>
    let result ← setBank 0
    if result ≠ Status.ok then return result
    let result ← selectMemsBank reg
    if result ≠ Status.ok then return result
    writeMemsLoop data.length reg data

theorem exec_writeMems {σ : Type} {env : Env σ BusEvent BusEvent.Resp} {reg : BitVec 16}
    {data : List Byte} {pdev : Device} {s : σ} {tr : BusTrace σ} {retval : Status} {pdev' : Device}
    {s' : σ} :
    Prog.Exec env ((writeMems reg (some data)).run pdev) s tr (retval, pdev') s' ↔
      ∃ result s₁ t₁ t₂, tr = t₁ ++ t₂ ∧
        Prog.Exec env ((selectMemsBank reg).run pdev) s t₁ (result, pdev') s₁ ∧
        if result = Status.ok then
          Prog.Exec env (writeMemsLoop data.length reg data) s₁ t₂ retval s'
        else t₂ = [] ∧ retval = result ∧ s' = s₁ := by
  change Prog.Exec env ((selectMemsBank reg >>= fun result => if result ≠ Status.ok then pure result
    else liftM (writeMemsLoop data.length reg data) : Drv Status).run pdev) s tr (retval, pdev') s'
    ↔ _
  rw [exec_guardM]
  constructor
  · rintro ⟨result, pdev₁, s₁, t₁, t₂, rfl, hsel, hrest⟩
    by_cases hok : result = Status.ok
    · rw [if_pos hok, Prog.exec_lift] at hrest
      obtain ⟨hloop, rfl⟩ := hrest
      exact ⟨result, s₁, t₁, t₂, rfl, hsel, by rwa [if_pos hok]⟩
    · rw [if_neg hok] at hrest
      obtain ⟨ht, hret, rfl, hs⟩ := hrest
      exact ⟨result, s₁, t₁, t₂, rfl, hsel, by rw [if_neg hok]; exact ⟨ht, hret, hs⟩⟩
  · -- the loop does not change the structure
    rintro ⟨result, s₁, t₁, t₂, rfl, hsel, hrest⟩
    refine ⟨result, pdev', s₁, t₁, t₂, rfl, hsel, ?_⟩
    split
    · rename_i hok
      rw [if_pos hok] at hrest
      exact (Prog.exec_lift env _ _ _ _ _ _ _).mpr ⟨hrest, rfl⟩
    · rename_i hok
      rw [if_neg hok] at hrest
      exact ⟨hrest.1, hrest.2.1, rfl, hrest.2.2⟩

section
variable {P : BusEvent → Prop} {δ : Type} {f : Device → δ}

/-- Writing a range selects the bank, sets the start address and moves bytes through the port. -/
theorem uses_selectMemsBank (hbank : ∀ b, P (.write agb0RegMemBankSel [b])) (reg : BitVec 16) :
    Prog.UsesFrom P (selectMemsBank reg) :=
  Prog.usesFrom_get.bind fun _ => .ite
    ((Prog.usesFrom_modify _).bind fun _ => Prog.usesFrom_lift ⟨hbank _, fun _ => trivial⟩)
    (Prog.usesFrom_pure _)

theorem uses_writeMems (hbank : ∀ b, P (.write agb0RegMemBankSel [b]))
    (hstart : ∀ b, P (.write agb0RegMemStartAddr [b]))
    (hport : ∀ chunk, P (.write agb0RegMemRW chunk)) (reg : BitVec 16)
    (data : Option (List Byte)) : Prog.UsesFrom P (writeMems reg data) := by
  cases data with
  | none => exact Prog.usesFrom_pure _
  | some data =>
    have hbank0 : (setBank 0).Uses P := trivial
    refine (Prog.usesFrom_lift hbank0).bind fun _ => .ite (Prog.usesFrom_pure _) ?_
    refine (uses_selectMemsBank hbank reg).bind fun _ => .ite (Prog.usesFrom_pure _) ?_
    exact Prog.usesFrom_lift (uses_writeMemsLoop hstart hport _ _ _)

/-- Of the device structure, only the remembered bank is changed. -/
theorem leaves_selectMemsBank (hf : ∀ pdev bank, f { pdev with lastMemsBank := bank } = f pdev)
    (reg : BitVec 16) : Prog.Leaves f (selectMemsBank reg) :=
  Prog.leaves_get.bind fun _ => .ite
    ((Prog.leaves_modify fun _ => hf _ _).bind fun _ => Prog.leaves_lift _) (Prog.leaves_pure _)

theorem leaves_writeMems (hf : ∀ pdev bank, f { pdev with lastMemsBank := bank } = f pdev)
    (reg : BitVec 16) (data : Option (List Byte)) : Prog.Leaves f (writeMems reg data) := by
  cases data with
  | none => exact Prog.leaves_pure _
  | some data =>
    refine (Prog.leaves_lift _).bind fun _ => .ite (Prog.leaves_pure _) ?_
    exact (leaves_selectMemsBank hf reg).bind fun _ =>
      .ite (Prog.leaves_pure _) (Prog.leaves_lift _)

end

/-- The loop of `read_mems` into the bytes still to read, whose contents so far are `dest`. -/
def readMemsLoop : Nat → BitVec 16 → List Byte → Io (Read (List Byte))
  | 0, _, dest => pure ⟨Status.ok, dest⟩
  | _ + 1, _, [] => pure ⟨Status.ok, []⟩
  | fuel + 1, reg, dest => do
    let result ← writeByte agb0RegMemStartAddr (loByte reg)
    if result ≠ Status.ok then return ⟨result, dest⟩
    let chunk := dest.take invMaxSerialRead
    let r ← executeR agb0RegMemRW (fun i : Fin chunk.length => chunk.get i)
    if r.retval ≠ Status.ok then return ⟨r.retval, dest⟩
    let rest ← readMemsLoop fuel (reg + BitVec.ofNat 16 chunk.length) (dest.drop invMaxSerialRead)
    return ⟨rest.retval, List.ofFn r.val ++ rest.val⟩

theorem uses_readMemsLoop {P : BusEvent → Prop} (hstart : ∀ b, P (.write agb0RegMemStartAddr [b]))
    (hport : ∀ len, P (.read agb0RegMemRW len)) (fuel : Nat) (reg : BitVec 16) (dest : List Byte) :
    (readMemsLoop fuel reg dest).Uses P := by
  induction fuel generalizing reg dest with
  | zero => trivial
  | succ fuel ih =>
    cases dest with
    | nil => trivial
    | cons b dest =>
      refine uses_guard ⟨hstart _, fun _ => trivial⟩ fun _ => ?_
      refine uses_guardRead ⟨hport _, fun _ => trivial⟩ fun _ => ?_
      exact (ih _ _).bind fun _ => trivial

def readMems (reg : BitVec 16) (data : Option (List Byte)) : Drv (Read (Option (List Byte))) := do
  match data with
  | none => return ⟨Status.noData, none⟩
  | some dest =>
    let result ← setBank 0
    if result ≠ Status.ok then return ⟨result, some dest⟩
    let result ← selectMemsBank reg
    if result ≠ Status.ok then return ⟨result, some dest⟩
    let r ← readMemsLoop dest.length reg dest
    return ⟨r.retval, some r.val⟩

theorem exec_readMems {σ : Type} {env : Env σ BusEvent BusEvent.Resp} {reg : BitVec 16}
    {dest : List Byte} {pdev : Device} {s : σ} {tr : BusTrace σ} {r : Read (Option (List Byte))}
    {pdev' : Device} {s' : σ}
    (hexec : Prog.Exec env ((readMems reg (some dest)).run pdev) s tr (r, pdev') s') :
    ∃ result s₁ t₁ t₂, tr = t₁ ++ t₂ ∧
      Prog.Exec env ((selectMemsBank reg).run pdev) s t₁ (result, pdev') s₁ ∧
      if result = Status.ok then
        ∃ rest, Prog.Exec env (readMemsLoop dest.length reg dest) s₁ t₂ rest s' ∧
          r = ⟨rest.retval, some rest.val⟩
      else t₂ = [] ∧ r = ⟨result, some dest⟩ ∧ s' = s₁ := by
  change Prog.Exec env ((selectMemsBank reg >>= fun result => if result ≠ Status.ok
    then pure ⟨result, some dest⟩ else liftM (readMemsLoop dest.length reg dest) >>= fun rest =>
      pure ⟨rest.retval, some rest.val⟩ : Drv (Read (Option (List Byte)))).run pdev) s tr (r, pdev')
    s' at hexec
  obtain ⟨result, pdev₁, s₁, t₁, t₂, rfl, hsel, hrest⟩ := exec_guardM.mp hexec
  by_cases hok : result = Status.ok
  · rw [if_pos hok, StateT.run_bind, Prog.exec_bind] at hrest
    obtain ⟨⟨rest, pdev₂⟩, s₂, t₃, t₄, rfl, hloop, hret⟩ := hrest
    obtain ⟨hrun, rfl⟩ := (Prog.exec_lift _ _ _ _ _ _ _ _).mp hloop
    obtain ⟨rfl, hr, rfl, rfl⟩ := Prog.exec_pureM.mp hret
    refine ⟨result, s₁, t₁, t₃, by rw [List.append_nil], hsel, ?_⟩
    rw [if_pos hok]
    exact ⟨rest, hrun, hr⟩
  · rw [if_neg hok] at hrest
    obtain ⟨rfl, hr, rfl, rfl⟩ := hrest
    refine ⟨result, s', t₁, [], rfl, hsel, ?_⟩
    rw [if_neg hok]
    exact ⟨rfl, hr, rfl⟩

/-! ## Firmware -/

/-- `min(size, max)`, cut down when the chunk would move across a bank. -/
def chunkSize (max size : Nat) (memaddr : BitVec 16) : Nat :=
  let writeSize := if size ≤ max then size else max
  -- what would lie beyond the bank, not what still fits into it
  let offset := (memaddr &&& 0xff).toNat
  if offset + writeSize > 0x100 then offset + writeSize - 0x100 else writeSize

/-- The loop that writes the image, over the bytes still to write. -/
def firmwareWriteLoop : Nat → BitVec 16 → List Byte → Drv Status
  | 0, _, _ => pure Status.ok
  | _ + 1, _, [] => pure Status.ok
  | fuel + 1, memaddr, data => do
    let writeSize := chunkSize invMaxSerialWrite data.length memaddr
    let result ← writeMems memaddr (some (data.take writeSize))
    if result ≠ Status.ok then return result
    firmwareWriteLoop fuel (memaddr + BitVec.ofNat 16 writeSize) (data.drop writeSize)

/-- The loop that verifies the image: `dataCmp` is the 16-byte buffer, `flag` whether a read
failed.  The result is `DMPVerifyFail` or `Ok` together with `flag`. -/
def firmwareVerifyLoop :
    Nat → BitVec 16 → List Byte → List Byte → Bool → Drv (Read Bool)
  | 0, _, _, _, flag => pure ⟨Status.ok, flag⟩
  | _ + 1, _, [], _, flag => pure ⟨Status.ok, flag⟩
  | fuel + 1, memaddr, data, dataCmp, flag => do
    let writeSize := chunkSize invMaxSerialRead data.length memaddr
    let r ← readMems memaddr (some (dataCmp.take writeSize))
    let dataCmp := r.val.getD [] ++ dataCmp.drop writeSize
    -- `flag++`, and the comparison goes on with what the buffer holds
    let flag := flag || r.retval ≠ Status.ok
    if dataCmp.take writeSize ≠ data.take writeSize then return ⟨Status.dmpVerifyFail, flag⟩
    firmwareVerifyLoop fuel (memaddr + BitVec.ofNat 16 writeSize) (data.drop writeSize) dataCmp flag

/-- `inv_icm20948_firmware_load`; `size` is the length of the list. -/
def invFirmwareLoad (dataStart : List Byte) (loadAddr : BitVec 16) : Drv Status := do
  let garbage ← uninit 16
  let pdev ← get
  if pdev.dmpFirmwareAvailable = false then return Status.dmpNotSupported
  if pdev.firmwareLoaded then return Status.ok
  let result ← sleep false
  if result ≠ Status.ok then return result
  let result ← lowPower false
  if result ≠ Status.ok then return result
  let result ← firmwareWriteLoop dataStart.length loadAddr dataStart
  if result ≠ Status.ok then return result
  let r ← firmwareVerifyLoop dataStart.length loadAddr dataStart (List.ofFn garbage) false
  if r.retval ≠ Status.ok then return r.retval
  let result ← lowPower true
  if result ≠ Status.ok then return result
  -- `if (!flag)`
  modify fun pdev => if r.val then pdev else { pdev with firmwareLoaded := true }
  return result

/-- How the driver was compiled: with `ICM_20948_USE_DMP`, and then with which image. -/
structure Build where
  useDmp : Bool
  dmp3Image : List Byte

def dmpLoadStart : BitVec 16 := 0x90
def dmpStartAddress : BitVec 16 := 0x1000

def firmwareLoad (build : Build) : Drv Status :=
  if build.useDmp then invFirmwareLoad build.dmp3Image dmpLoadStart
  else pure Status.dmpNotSupported

def setDmpStartAddress (address : BitVec 16) : Drv Status := do
  let pdev ← get
  if pdev.dmpFirmwareAvailable = false then return Status.dmpNotSupported
  let result ← setBank 2
  if result ≠ Status.ok then return result
  executeW agb2RegPrgmStartAddrh [hiByte address, loByte address]

/-! ### What they leave of the device structure -/

section
variable {δ : Type} {f : Device → δ}

theorem leaves_readMems (hf : ∀ pdev bank, f { pdev with lastMemsBank := bank } = f pdev)
    (reg : BitVec 16) (data : Option (List Byte)) : Prog.Leaves f (readMems reg data) := by
  cases data with
  | none => exact Prog.leaves_pure _
  | some data =>
    refine (Prog.leaves_lift _).bind fun _ => .ite (Prog.leaves_pure _) ?_
    refine (leaves_selectMemsBank hf reg).bind fun _ => .ite (Prog.leaves_pure _) ?_
    exact (Prog.leaves_lift _).bind fun _ => Prog.leaves_pure _

theorem leaves_firmwareWriteLoop
    (hf : ∀ pdev bank, f { pdev with lastMemsBank := bank } = f pdev) (fuel : Nat)
    (memaddr : BitVec 16) (data : List Byte) :
    Prog.Leaves f (firmwareWriteLoop fuel memaddr data) := by
  induction fuel generalizing memaddr data with
  | zero => exact Prog.leaves_pure _
  | succ fuel ih =>
    cases data with
    | nil => exact Prog.leaves_pure _
    | cons b data =>
      exact (leaves_writeMems hf _ _).bind fun _ => .ite (Prog.leaves_pure _) (ih _ _)

theorem leaves_firmwareVerifyLoop
    (hf : ∀ pdev bank, f { pdev with lastMemsBank := bank } = f pdev) (fuel : Nat)
    (memaddr : BitVec 16) (data dataCmp : List Byte) (flag : Bool) :
    Prog.Leaves f (firmwareVerifyLoop fuel memaddr data dataCmp flag) := by
  induction fuel generalizing memaddr data dataCmp flag with
  | zero => exact Prog.leaves_pure _
  | succ fuel ih =>
    cases data with
    | nil => exact Prog.leaves_pure _
    | cons b data =>
      exact (leaves_readMems hf _ _).bind fun _ => .ite (Prog.leaves_pure _) (ih _ _ _ _)

/-- Loading changes the remembered bank and `_firmware_loaded` only. -/
theorem leaves_invFirmwareLoad (hf : ∀ pdev bank, f { pdev with lastMemsBank := bank } = f pdev)
    (hloaded : ∀ pdev loaded, f { pdev with firmwareLoaded := loaded } = f pdev)
    (image : List Byte) (loadAddr : BitVec 16) :
    Prog.Leaves f (invFirmwareLoad image loadAddr) := by
  refine (Prog.leaves_lift _).bind fun _ => Prog.leaves_get.bind fun _ => ?_
  refine .ite (Prog.leaves_pure _) (.ite (Prog.leaves_pure _) ?_)
  refine (Prog.leaves_lift _).bind fun _ => .ite (Prog.leaves_pure _) ?_
  refine (Prog.leaves_lift _).bind fun _ => .ite (Prog.leaves_pure _) ?_
  refine (leaves_firmwareWriteLoop hf _ _ _).bind fun _ => .ite (Prog.leaves_pure _) ?_
  refine (leaves_firmwareVerifyLoop hf _ _ _ _ _).bind fun _ => .ite (Prog.leaves_pure _) ?_
  refine (Prog.leaves_lift _).bind fun _ => .ite (Prog.leaves_pure _) ?_
  refine (Prog.leaves_modify fun pdev => ?_).bind fun _ => Prog.leaves_pure _
  split
  · rfl
  · exact hloaded pdev true

theorem leaves_setDmpStartAddress (address : BitVec 16) :
    Prog.Leaves f (setDmpStartAddress address) := by
  refine Prog.leaves_get.bind fun _ => .ite (Prog.leaves_pure _) ?_
  exact (Prog.leaves_lift _).bind fun _ => .ite (Prog.leaves_pure _) (Prog.leaves_lift _)

end

end SimuSound.Imu
