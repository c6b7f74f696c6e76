import SimuSound.Imu.Object
import SimuSound.Reasoning.Transition

/-!
# BankCache — the memory bank that the driver remembers

`_last_mems_bank` saves selecting the bank that is selected already.  It is assigned before the
select is known to have succeeded, a reset does not touch it, and the value that stands for no bank
is a bank too.
-/

namespace SimuSound.Imu

open Reasoning

/-! ## The device -/

/-- `MEM_BANK_SEL` after a successful access. -/
def bankAfter (bank : Byte) : BusEvent → Byte
  | .write reg [b] =>
    if reg = agb0RegMemBankSel then b
    else if reg = agb0RegPwrMgmt1 ∧ PwrMgmt1.deviceReset.get b ≠ 0 then 0 else bank
  | _ => bank

/-- The device's bank; any access may fail, and one that fails changes nothing. -/
def bankDevice : Env Byte BusEvent BusEvent.Resp := fun bank e r bank' =>
  bank' = if Good e r then bankAfter bank e else bank

/-! ## Calls -/

inductive MemCall
  | writeMems (reg : BitVec 16) (data : Option (List Byte))
  | readMems (reg : BitVec 16) (data : Option (List Byte))
  | swReset

def MemCall.run : MemCall → Drv PUnit
  | .writeMems reg data => callDrv (Imu.writeMems reg data)
  | .readMems reg data => callDrv (Imu.readMems reg data)
  | .swReset => callIo Imu.swReset

/-- The bank that the call starts in, unless it returns at once or is a reset. -/
def MemCall.startBank : MemCall → Option Byte
  | .writeMems reg (some _) | .readMems reg (some _) => some (hiByte reg)
  | .writeMems _ none | .readMems _ none | .swReset => none

/-- A call as it went. -/
structure MemLabel where
  call : MemCall
  tr : BusTrace Byte

/-- The device structure and the device's bank. -/
abbrev MemState := Device × Byte

def memStep (w : MemState) (l : MemLabel) (w' : MemState) : Prop :=
  ∃ x, Prog.Exec bankDevice (l.call.run.run w.1) w.2 l.tr (x, w'.1) w'.2

abbrev MemRun := List (Step MemState MemLabel)

/-- The first transfer of the call, as the device saw it. -/
def firstTransfer (tr : BusTrace Byte) : Option (Obs Byte BusEvent BusEvent.Resp) :=
  tr.find? fun o => o.event.reg = some agb0RegMemRW

/-- The first transfer of the call finds its bank selected. -/
def BankRight (x : Step MemState MemLabel) : Prop :=
  ∀ bank ∈ x.label.call.startBank, ∀ o ∈ firstTransfer x.label.tr, o.pre = bank

/-- The call gets as far as a transfer, in the bank that is remembered but not selected. -/
def TrustsStaleBank (x : Step MemState MemLabel) : Prop :=
  x.label.call.startBank = some x.pre.1.lastMemsBank ∧ x.pre.2 ≠ x.pre.1.lastMemsBank ∧
    (firstTransfer x.label.tr).isSome

/-- What keeps the remembered bank from going stale: no select fails, a reset that takes effect
finds bank 0 remembered or none, and bank 255 is not the first to be used. -/
structure Careful (x : Step MemState MemLabel) : Prop where
  select : ∀ o ∈ x.label.tr, o.event.reg = some agb0RegMemBankSel → Good o.event o.resp
  reset : x.label.call = .swReset → AllOk x.label.tr →
    x.pre.1.lastMemsBank = 0 ∨ x.pre.1.lastMemsBank = 255
  sentinel : x.label.call.startBank = some 255 → x.pre.1.lastMemsBank = 255 → x.pre.2 = 255

/-! ## One call -/

/-- The transfers of one call and the start addresses before them. -/
def MemPort (e : BusEvent) : Prop :=
  e.reg = some agb0RegMemStartAddr ∨ e.reg = some agb0RegMemRW

theorem bankAfter_memPort {e : BusEvent} (he : MemPort e) (bank : Byte) :
    bankAfter bank e = bank := by
  unfold bankAfter
  split
  · rename_i reg b
    have hne : reg ≠ agb0RegMemBankSel ∧ reg ≠ agb0RegPwrMgmt1 := by
      rcases he with he | he
      · obtain rfl := Option.some.inj he
        decide
      · obtain rfl := Option.some.inj he
        decide
    rw [if_neg hne.1, if_neg fun h => hne.2 h.1]
  · rfl

theorem bankDevice_steady (bank : Byte) (e : BusEvent) (r : e.Resp) (bank' : Byte)
    (he : MemPort e) (hdev : bankDevice bank e r bank') : bank' = bank := by
  rw [show bank' = if Good e r then bankAfter bank e else bank from hdev, bankAfter_memPort he,
    ite_self]

/-- What is known of a call that starts in `bank`: `found` is the bank its transfers find. -/
structure Accessed (bank : Byte) (w : MemState) (tr : BusTrace Byte) (w' : MemState) : Prop where
  remembered : w'.1.lastMemsBank = bank
  transfers : ∀ o ∈ tr, o.event.reg = some agb0RegMemRW →
    o.pre = if bank = w.1.lastMemsBank then w.2 else bank
  selected : (∀ o ∈ tr, o.event.reg = some agb0RegMemBankSel → Good o.event o.resp) →
    w'.2 = if bank = w.1.lastMemsBank then w.2 else bank

/-- The select and, if it succeeds, code that only goes through the port. -/
theorem accessed_of_select {reg : BitVec 16} {w w' : MemState} {result : Status} {bank₁ : Byte}
    {t₁ t₂ : BusTrace Byte}
    (hsel : Prog.Exec bankDevice ((selectMemsBank reg).run w.1) w.2 t₁ (result, w'.1) bank₁)
    (hrest : if result = Status.ok then w'.2 = bank₁ ∧ ∀ o ∈ t₂, o.pre = bank₁
      else t₂ = [] ∧ w'.2 = bank₁) : Accessed (hiByte reg) w (t₁ ++ t₂) w' := by
  rw [exec_selectMemsBank] at hsel
  by_cases hbank : hiByte reg = w.1.lastMemsBank
  · -- nothing is selected, and the transfers find whatever bank the device has
    rw [if_neg (not_not_intro hbank)] at hsel
    obtain ⟨rfl, rfl, hpdev, rfl⟩ := hsel
    rw [if_pos rfl] at hrest
    refine ⟨by rw [hpdev, hbank], fun o ho _ => ?_, fun _ => ?_⟩
    · rw [if_pos hbank]
      exact hrest.2 o ho
    · rw [if_pos hbank]
      exact hrest.1
  · -- the bank is remembered whether or not the select succeeds
    rw [if_pos hbank] at hsel
    obtain ⟨hdev, rfl, hpdev⟩ := hsel
    have hbank₁ : bank₁ = if result = Status.ok then hiByte reg else w.2 := hdev
    refine ⟨by rw [hpdev], fun o ho hport => ?_, fun hgood => ?_⟩
    · rw [if_neg hbank]
      rcases List.mem_append.mp ho with ho | ho
      · obtain rfl := List.mem_singleton.mp ho
        exact absurd hport (show some agb0RegMemBankSel ≠ some agb0RegMemRW by decide)
      · by_cases hok : result = Status.ok
        · rw [if_pos hok] at hrest hbank₁
          rw [hrest.2 o ho, hbank₁]
        · -- a failed select ends the call before any transfer
          rw [if_neg hok] at hrest
          rw [hrest.1] at ho
          exact absurd ho List.not_mem_nil
    · have hok : result = Status.ok := hgood _ List.mem_cons_self rfl
      rw [if_pos hok] at hrest hbank₁
      rw [if_neg hbank, hrest.1, hbank₁]

theorem accessed_of_step {w w' : MemState} {l : MemLabel} {bank : Byte}
    (hstart : l.call.startBank = some bank) (hstep : memStep w l w') : Accessed bank w l.tr w' := by
  obtain ⟨x, hexec⟩ := hstep
  obtain ⟨call, tr⟩ := l
  cases call with
  | writeMems reg data =>
    cases data with
    | none => cases hstart
    | some data =>
      obtain rfl := Option.some.inj hstart
      obtain ⟨retval, hcall⟩ := exec_callDrv.mp hexec
      obtain ⟨result, bank₁, t₁, t₂, htr, hsel, hrest⟩ := exec_writeMems.mp hcall
      change tr = t₁ ++ t₂ at htr
      change Accessed (hiByte reg) w tr w'
      rw [htr]
      refine accessed_of_select hsel ?_
      split
      · rename_i hok
        rw [if_pos hok] at hrest
        have huses := uses_writeMemsLoop (P := MemPort) (fun _ => Or.inl rfl) (fun _ => Or.inr rfl)
          data.length reg data
        exact hrest.steady bankDevice_steady huses
      · rename_i hok
        rw [if_neg hok] at hrest
        exact ⟨hrest.1, hrest.2.2⟩
  | readMems reg data =>
    cases data with
    | none => cases hstart
    | some dest =>
      obtain rfl := Option.some.inj hstart
      obtain ⟨r, hcall⟩ := exec_callDrv.mp hexec
      obtain ⟨result, bank₁, t₁, t₂, htr, hsel, hrest⟩ := exec_readMems hcall
      change tr = t₁ ++ t₂ at htr
      change Accessed (hiByte reg) w tr w'
      rw [htr]
      refine accessed_of_select hsel ?_
      split
      · rename_i hok
        rw [if_pos hok] at hrest
        obtain ⟨rest, hrun, -⟩ := hrest
        have huses := uses_readMemsLoop (P := MemPort) (fun _ => Or.inl rfl) (fun _ => Or.inr rfl)
          dest.length reg dest
        exact hrun.steady bankDevice_steady huses
      · rename_i hok
        rw [if_neg hok] at hrest
        exact ⟨hrest.1, hrest.2.2⟩
  | swReset => cases hstart

/-- A reset takes effect when its accesses succeed, and changes nothing otherwise. -/
theorem exec_swReset {bank bank' : Byte} {tr : BusTrace Byte} {retval : Status}
    (hexec : Prog.Exec bankDevice swReset bank tr retval bank') :
    bank' = bank ∨ AllOk tr ∧ bank' = 0 := by
  obtain ⟨garbage, bank₁, t₁, hgarbage, rfl, hexec₁⟩ := hexec
  have hbank₁ : bank₁ = bank := hgarbage.trans (ite_self _)
  change Prog.Exec bankDevice (readByte agb0RegPwrMgmt1 (garbage 0) >>= fun r =>
    if r.retval ≠ Status.ok then pure r.retval
    else writeByte agb0RegPwrMgmt1 (resetAssign r.val)) _ _ _ _ at hexec₁
  obtain ⟨r, bank₂, t₂, t₃, rfl, hread, hexec₂⟩ := (Prog.exec_bind _ _ _ _ _ _ _).mp hexec₁
  obtain ⟨answer, bank₃, t₄, hanswer, rfl, rfl, rfl, rfl⟩ := hread
  have hbank₂ : bank₂ = bank := (hanswer.trans (ite_self _)).trans hbank₁
  -- only the write can reset the device, and only if it succeeds
  by_cases hr : answer.retval = Status.ok
  · rw [if_neg (not_not_intro hr), resetAssign_eq] at hexec₂
    obtain ⟨hwrite, rfl⟩ := (Prog.exec_perform _ _ _ _ _ _).mp hexec₂
    have hbank' : bank' = if retval = Status.ok then 0 else bank₂ := hwrite
    by_cases hok : retval = Status.ok
    · rw [if_pos hok] at hbank'
      refine Or.inr ⟨?_, hbank'⟩
      simp only [List.cons_append, List.nil_append, allOk_cons]
      exact ⟨trivial, hr, hok, allOk_nil⟩
    · rw [if_neg hok] at hbank'
      exact Or.inl (hbank'.trans hbank₂)
  · rw [if_pos hr] at hexec₂
    exact Or.inl (hexec₂.2.2.trans hbank₂)

/-- A call without a starting bank leaves the structure alone, and the bank too unless it resets the
device. -/
theorem idle_of_step {w w' : MemState} {l : MemLabel} (hstart : l.call.startBank = none)
    (hstep : memStep w l w') :
    w'.1 = w.1 ∧ (w'.2 = w.2 ∨ l.call = .swReset ∧ AllOk l.tr ∧ w'.2 = 0) := by
  obtain ⟨x, hexec⟩ := hstep
  obtain ⟨call, tr⟩ := l
  cases call with
  | writeMems reg data =>
    cases data with
    | none =>
      obtain ⟨retval, -, hret, hbank⟩ := exec_callDrv.mp hexec
      exact ⟨(Prod.mk.inj hret).2, Or.inl hbank⟩
    | some data => cases hstart
  | readMems reg data =>
    cases data with
    | none =>
      obtain ⟨r, -, hret, hbank⟩ := exec_callDrv.mp hexec
      exact ⟨(Prod.mk.inj hret).2, Or.inl hbank⟩
    | some dest => cases hstart
  | swReset =>
    obtain ⟨⟨retval, hcall⟩, hpdev⟩ := exec_callIo.mp hexec
    exact ⟨hpdev, (exec_swReset hcall).imp_right fun h => ⟨rfl, h⟩⟩

/-! ## Runs -/

theorem mem_firstTransfer {tr : BusTrace Byte} {o : Obs Byte BusEvent BusEvent.Resp}
    (h : firstTransfer tr = some o) : o ∈ tr ∧ o.event.reg = some agb0RegMemRW :=
  ⟨List.mem_of_find?_eq_some h, by simpa using List.find?_some h⟩

theorem bankRight_iff {w w' : MemState} {l : MemLabel} (hstep : memStep w l w') :
    BankRight ⟨w, l, w'⟩ ↔ ¬ TrustsStaleBank ⟨w, l, w'⟩ := by
  constructor
  · intro hright ⟨hstart, hne, htransfer⟩
    obtain ⟨o, ho⟩ := Option.isSome_iff_exists.mp htransfer
    obtain ⟨hmem, hport⟩ := mem_firstTransfer ho
    have hfound := (accessed_of_step hstart hstep).transfers o hmem hport
    rw [if_pos rfl] at hfound
    exact hne (hfound.symm.trans (hright _ hstart o ho))
  · intro hfresh bank hstart o ho
    obtain ⟨hmem, hport⟩ := mem_firstTransfer ho
    have hfound := (accessed_of_step hstart hstep).transfers o hmem hport
    rw [hfound]
    by_cases hbank : bank = w.1.lastMemsBank
    · rw [if_pos hbank]
      by_contra hne
      exact hfresh ⟨hbank ▸ hstart, hbank ▸ hne, Option.isSome_iff_exists.mpr ⟨o, ho⟩⟩
    · exact if_neg hbank

/-- The remembered bank is selected, or no bank is remembered. -/
def Synced (w : MemState) : Prop := w.2 = w.1.lastMemsBank ∨ w.1.lastMemsBank = 255

theorem synced_begin (build : Build) (device : Device) :
    Synced (Icm20948.beginDevice build device, 0) := Or.inr rfl

/-- A careful step does not trust a stale bank. -/
theorem Synced.fresh {x : Step MemState MemLabel} (hsync : Synced x.pre) (hcareful : Careful x) :
    ¬ TrustsStaleBank x := by
  intro ⟨hstart, hne, _⟩
  rcases hsync with hsync | hnone
  · exact hne hsync
  · -- 255 stands for no bank, but a call may start in bank 255
    rw [hnone] at hstart hne
    exact hne (hcareful.sentinel hstart hnone)

/-- Nor does it leave one behind. -/
theorem Synced.step {x : Step MemState MemLabel} (hsync : Synced x.pre) (hcareful : Careful x)
    (hstep : memStep x.pre x.label x.post) : Synced x.post := by
  cases hstart : x.label.call.startBank with
  | some bank =>
    have haccessed := accessed_of_step hstart hstep
    have hbank := haccessed.selected hcareful.select
    rw [Synced, haccessed.remembered, hbank]
    split
    · rename_i hsame
      rw [hsame]
      exact hsync
    · exact Or.inl rfl
  | none =>
    obtain ⟨hpdev, hbank⟩ := idle_of_step hstart hstep
    rw [Synced, hpdev]
    rcases hbank with hbank | ⟨hreset, hgood, hbank⟩
    · rw [hbank]
      exact hsync
    · -- the device is in bank 0 now, and the remembered bank is what it was
      rw [hbank]
      exact (hcareful.reset hreset hgood).imp_left Eq.symm

/-- In a run from what `begin` leaves: a call finds its bank selected unless it trusts a stale one,
and none does when every step is careful. -/
theorem first_transfer_bank {build : Build} {device : Device} {run : MemRun} {w : MemState}
    (hrun : Run memStep (Icm20948.beginDevice build device, 0) run w) :
    (∀ x ∈ run, BankRight x ↔ ¬ TrustsStaleBank x) ∧
      ((∀ x ∈ run, Careful x) → ∀ x ∈ run, BankRight x) := by
  have hiff : ∀ x ∈ run, BankRight x ↔ ¬ TrustsStaleBank x :=
    fun x hx => bankRight_iff (hrun.step_mem x hx)
  refine ⟨hiff, fun hcareful x hx => (hiff x hx).mpr ?_⟩
  have hsynced := (hrun.invariant (synced_begin build device) fun y hy hpre hstep =>
    hpre.step (hcareful y hy) hstep).2
  exact (hsynced x hx).1.fresh (hcareful x hx)

/-! ## A device on which nothing fails -/

def bankChip : Handler Byte BusEvent BusEvent.Resp
  | .read _ _, bank => (⟨Status.ok, fun _ => 0⟩, bank)
  | .write reg data, bank => (Status.ok, bankAfter bank (.write reg data))
  | .uninit _, bank => (fun _ => 0, bank)
  | .spiOpen _ _, bank => ((0 : Int), bank)

theorem bankDevice_bankChip (bank : Byte) (e : BusEvent) (r : e.Resp) (bank' : Byte)
    (h : bankChip e bank = (r, bank')) : bankDevice bank e r bank' := by
  obtain ⟨rfl, rfl⟩ := Handler.answer_eq h
  cases e with
  | read reg len => rfl
  | write reg data => rfl
  | uninit len => rfl
  | spiOpen csPin freq => rfl

def chipStep (w : MemState) (call : MemCall) : Step MemState MemLabel where
  pre := w
  label := ⟨call, Prog.trace bankChip (call.run.run w.1) w.2⟩
  post := ((Prog.run bankChip (call.run.run w.1) w.2).1.2,
    (Prog.run bankChip (call.run.run w.1) w.2).2)

def chipRun (w : MemState) : List MemCall → MemRun
  | [] => []
  | call :: calls => chipStep w call :: chipRun (chipStep w call).post calls

theorem run_chipRun (w : MemState) (calls : List MemCall) :
    ∃ w', Run memStep w (chipRun w calls) w' := by
  induction calls generalizing w with
  | nil => exact ⟨w, rfl⟩
  | cons call calls ih =>
    obtain ⟨w', hrun⟩ := ih (chipStep w call).post
    refine ⟨w', rfl, ⟨PUnit.unit, ?_⟩, hrun⟩
    exact (Prog.exec_run bankChip (call.run.run w.1) w.2).mono fun _ _ _ _ =>
      bankDevice_bankChip _ _ _ _

/-- The state after `begin`, of an object in static storage. -/
def begun : MemState :=
  (Icm20948.beginDevice ⟨true, []⟩ ⟨false, false, 0, 0, 0, 0, 0, 0, 0, 0, 0, 0, 0, 0⟩, 0)

theorem good_bankChip (e : BusEvent) (bank : Byte) : Good e (bankChip e bank).1 := by
  cases e with
  | read reg len => exact rfl
  | write reg data => exact rfl
  | uninit len => exact trivial
  | spiOpen csPin freq => exact trivial

/-- Where nothing fails, only the remembered bank matters. -/
theorem careful_chipStep {w : MemState} {call : MemCall}
    (hreset : call = .swReset → w.1.lastMemsBank = 0 ∨ w.1.lastMemsBank = 255)
    (hsentinel : call.startBank = some 255 → w.1.lastMemsBank = 255 → w.2 = 255) :
    Careful (chipStep w call) where
  select o ho _ := Prog.allGood_trace good_bankChip (call.run.run w.1) w.2 o ho
  reset h _ := hreset h
  sentinel := hsentinel

/-- Resets while no bank is remembered, and after a write in bank 0. -/
def resetInBankZero : List MemCall :=
  [.swReset, .writeMems 0x0010 (some [1, 2]), .swReset, .writeMems 0x0110 (some [3])]

theorem first_transfer_bank_resetInBankZero :
    (∀ x ∈ chipRun begun resetInBankZero, Careful x) ∧
      ∀ x ∈ chipRun begun resetInBankZero, BankRight x := by
  have hcareful : ∀ x ∈ chipRun begun resetInBankZero, Careful x := by
    simp only [resetInBankZero, chipRun, List.forall_mem_cons]
    refine ⟨careful_chipStep (fun _ => Or.inr rfl) (by decide), ?_⟩
    refine ⟨careful_chipStep MemCall.noConfusion (by decide), ?_⟩
    refine ⟨careful_chipStep (fun _ => Or.inl rfl) (by decide), ?_⟩
    exact ⟨careful_chipStep MemCall.noConfusion (by decide), List.forall_mem_nil _⟩
  obtain ⟨w, hrun⟩ := run_chipRun begun resetInBankZero
  exact ⟨hcareful, (first_transfer_bank hrun).2 hcareful⟩

/-- The same bytes are written before and after a reset. -/
def resetBetween : List MemCall :=
  [.writeMems 0x0110 (some [1, 2]), .swReset, .writeMems 0x0110 (some [1, 2])]

/-- The second write goes to bank 0, though it starts in bank 1. -/
theorem reset_leaves_stale_bank :
    ¬ ∀ (build : Build) (device : Device) (run : MemRun) (w : MemState),
      Run memStep (Icm20948.beginDevice build device, 0) run w → ∀ x ∈ run, BankRight x := by
  intro hall
  obtain ⟨w, hrun⟩ := run_chipRun begun resetBetween
  have hright := hall _ _ _ w hrun _ (List.mem_cons_of_mem _ (List.mem_cons_of_mem _
    List.mem_cons_self))
  have hpre := hright 0x01 rfl _ rfl
  exact absurd hpre (by decide)

end SimuSound.Imu
