import SimuSound.Imu.Reporting

/-!
# StatusSoundness — whether `Ok` means that every bus access succeeded

Three driver functions keep one result variable and overwrite it.  The accesses whose results are
lost that way are described here by what the bus answered.
-/

namespace SimuSound.Imu

open Reasoning

/-! ## A result that is overwritten -/

theorem append_eq_append_cons {α : Type} {t₁ t₂ before after : List α} {o : α}
    (h : t₁ ++ t₂ = before ++ o :: after) :
    (∃ rest, t₁ = before ++ o :: rest ∧ after = rest ++ t₂) ∨
      ∃ rest, before = t₁ ++ rest ∧ t₂ = rest ++ o :: after := by
  rcases List.append_eq_append_iff.mp h with ⟨rest, hbefore, ht₂⟩ | ⟨rest, ht₁, hafter⟩
  · exact Or.inr ⟨rest, hbefore, ht₂⟩
  · rcases List.cons_eq_append_iff.mp hafter with ⟨rfl, ht₂⟩ | ⟨rest', rfl, hrest⟩
    · exact Or.inr ⟨[], by simpa using ht₁.symm, by simpa using ht₂⟩
    · exact Or.inl ⟨rest', ht₁, hrest⟩

section
variable {σ α : Type} {env : Env σ BusEvent BusEvent.Resp} {P : BusTrace σ → Prop}
  {pdev pdev' : Device} {s s' : σ} {tr : BusTrace σ}

/-- Exactly one access of the trace failed, it was not one to `PWR_MGMT_1`, and the accesses before
it satisfy `P`. -/
def LostFailure (P : BusTrace σ → Prop) (tr : BusTrace σ) : Prop :=
  ∃ before o after, tr = before ++ o :: after ∧ AllOk before ∧ ¬ Good o.event o.resp ∧
    AllOk after ∧ o.event.reg ≠ some agb0RegPwrMgmt1 ∧ P before

/-- Only accesses to `PWR_MGMT_1` failed, if any. -/
def FailsAtPwrMgmt1 (tr : BusTrace σ) : Prop :=
  ∀ o ∈ tr, ¬ Good o.event o.resp → o.event.reg = some agb0RegPwrMgmt1

theorem not_lostFailure_of_failsAtPwrMgmt1 (h : FailsAtPwrMgmt1 tr) : ¬ LostFailure P tr := by
  rintro ⟨before, o, after, rfl, -, hbad, -, hreg, -⟩
  exact hreg (h o (List.mem_append_cons_self) hbad)

/-- What is known to fail only at `PWR_MGMT_1` may be cut off. -/
theorem lostFailure_frame {t₁ t₂ t₃ : BusTrace σ} (h₁ : FailsAtPwrMgmt1 t₁)
    (h₃ : FailsAtPwrMgmt1 t₃) (hP : ∀ t, P (t₁ ++ t) ↔ P t) :
    LostFailure P (t₁ ++ (t₂ ++ t₃)) ↔ AllOk t₁ ∧ LostFailure P t₂ ∧ AllOk t₃ := by
  constructor
  · rintro ⟨before, o, after, htr, hbefore, hbad, hafter, hreg, hpre⟩
    -- the failed access is in one of the three parts, and only the middle one is possible
    rcases append_eq_append_cons htr with ⟨rest, rfl, -⟩ | ⟨rest, rfl, htr'⟩
    · exact absurd (h₁ o List.mem_append_cons_self hbad) hreg
    have hsplit := (allOk_append _ _).mp hbefore
    rcases append_eq_append_cons htr' with ⟨rest', rfl, rfl⟩ | ⟨rest', -, rfl⟩
    · have hsplit' := (allOk_append _ _).mp hafter
      exact ⟨hsplit.1, ⟨rest, o, rest', rfl, hsplit.2, hbad, hsplit'.1, hreg, (hP rest).mp hpre⟩,
        hsplit'.2⟩
    · exact absurd (h₃ o List.mem_append_cons_self hbad) hreg
  · rintro ⟨h₁, ⟨before, o, after, rfl, hbefore, hbad, hafter, hreg, hpre⟩, h₃⟩
    refine ⟨t₁ ++ before, o, after ++ t₃, by simp only [List.append_assoc, List.cons_append], ?_,
      hbad, ?_, hreg, (hP before).mpr hpre⟩
    · exact (allOk_append _ _).mpr ⟨h₁, hbefore⟩
    · exact (allOk_append _ _).mpr ⟨hafter, h₃⟩

/-- `ICM_20948_sleep` and `ICM_20948_low_power` report what they do, all of it to `PWR_MGMT_1`. -/
theorem exec_updatePwrMgmt1 {assign : Byte → Byte} {retval : Status}
    (hexec : Prog.Exec env (updateReg 0 agb0RegPwrMgmt1 assign) s tr retval s') :
    (retval = Status.ok ↔ AllOk tr) ∧ FailsAtPwrMgmt1 tr ∧
      ∀ o ∈ tr, o.event.reg ≠ some agb0RegMemRW := by
  refine ⟨⟨(reports_updateReg _ _ _).exec hexec, (succeeds_updateReg _ _ _).exec hexec⟩, ?_, ?_⟩
  · have huses := uses_updateReg 0 agb0RegPwrMgmt1 assign
      (P := fun e => ∀ r, ¬ Good e r → e.reg = some agb0RegPwrMgmt1)
      (fun _ _ hbad => absurd trivial hbad) (fun _ _ => rfl) (fun _ _ _ => rfl)
    exact fun o ho => huses.exec hexec o ho o.resp
  · have huses := uses_updateReg 0 agb0RegPwrMgmt1 assign
      (P := fun e => e.reg ≠ some agb0RegMemRW) (fun _ => nofun) (by decide)
      (fun b => by simp [BusEvent.reg, agb0RegPwrMgmt1, agb0RegMemRW])
    exact huses.exec hexec

/-- The way the DMP is configured: wake the chip, do something, and put it back to sleep. -/
def awake (mid : Drv α) (fin : α → Status → Status) : Drv Status := do
  let result ← sleep false
  if result ≠ Status.ok then return result
  let result ← lowPower false
  if result ≠ Status.ok then return result
  let a ← mid
  let result ← lowPower true
  return fin a result

/-- Either the chip did not wake up, or the accesses of `mid` are framed by successful ones and
those of the last `low_power`. -/
theorem exec_awake {mid : Drv α} {fin : α → Status → Status} {retval : Status}
    (hexec : Prog.Exec env ((awake mid fin).run pdev) s tr (retval, pdev') s') :
    (retval ≠ Status.ok ∧ ¬ AllOk tr ∧ FailsAtPwrMgmt1 tr) ∨
      ∃ t₁ t₂ t₃ a result s₁ s₂, tr = t₁ ++ (t₂ ++ t₃) ∧ AllOk t₁ ∧ FailsAtPwrMgmt1 t₁ ∧
        (∀ o ∈ t₁, o.event.reg ≠ some agb0RegMemRW) ∧
        Prog.Exec env (mid.run pdev) s₁ t₂ (a, pdev') s₂ ∧ FailsAtPwrMgmt1 t₃ ∧
        (result = Status.ok ↔ AllOk t₃) ∧ retval = fin a result := by
  unfold awake at hexec
  -- `ICM_20948_sleep(pdev, false)`
  obtain ⟨r₁, pdev₁, s₁, t₁, t₂, rfl, hlift₁, hexec₁⟩ := exec_guardM.mp hexec
  obtain ⟨hsleep, rfl⟩ := (Prog.exec_lift _ _ _ _ _ _ _ _).mp hlift₁
  obtain ⟨hok₁, hpwr₁, hmem₁⟩ := exec_updatePwrMgmt1 hsleep
  by_cases hr₁ : r₁ = Status.ok
  swap
  · rw [if_neg hr₁] at hexec₁
    obtain ⟨rfl, rfl, -, -⟩ := hexec₁
    rw [List.append_nil]
    exact Or.inl ⟨hr₁, fun h => hr₁ (hok₁.mpr h), hpwr₁⟩
  rw [if_pos hr₁] at hexec₁
  -- `ICM_20948_low_power(pdev, false)`
  obtain ⟨r₂, pdev₂, s₂, t₂, t₃, rfl, hlift₂, hexec₂⟩ := exec_guardM.mp hexec₁
  obtain ⟨hlp, rfl⟩ := (Prog.exec_lift _ _ _ _ _ _ _ _).mp hlift₂
  obtain ⟨hok₂, hpwr₂, hmem₂⟩ := exec_updatePwrMgmt1 hlp
  have hpwr : FailsAtPwrMgmt1 (t₁ ++ t₂) := fun o ho =>
    (List.mem_append.mp ho).elim (hpwr₁ o) (hpwr₂ o)
  by_cases hr₂ : r₂ = Status.ok
  swap
  · rw [if_neg hr₂] at hexec₂
    obtain ⟨rfl, rfl, -, -⟩ := hexec₂
    rw [List.append_nil]
    exact Or.inl ⟨hr₂, fun h => hr₂ (hok₂.mpr ((allOk_append _ _).mp h).2), hpwr⟩
  -- the chip is awake: the part in the middle, then `ICM_20948_low_power(pdev, true)`
  rw [if_pos hr₂, StateT.run_bind, Prog.exec_bind] at hexec₂
  obtain ⟨⟨a, pdev₃⟩, s₃, t₃, t₄, rfl, hmid, hexec₃⟩ := hexec₂
  rw [StateT.run_bind, Prog.exec_bind] at hexec₃
  obtain ⟨⟨result, pdev₄⟩, s₄, t₄, t₅, rfl, hlift₃, hret⟩ := hexec₃
  obtain ⟨hlp', rfl⟩ := (Prog.exec_lift _ _ _ _ _ _ _ _).mp hlift₃
  obtain ⟨hok₃, hpwr₃, -⟩ := exec_updatePwrMgmt1 hlp'
  obtain ⟨rfl, hpair, rfl⟩ := hret
  obtain ⟨rfl, rfl⟩ := Prod.mk.inj hpair
  refine Or.inr ⟨t₁ ++ t₂, t₃, t₄, a, result, _, _, ?_, ?_, hpwr, ?_, hmid, hpwr₃, hok₃, rfl⟩
  · simp only [List.append_assoc, List.append_nil]
  · exact (allOk_append _ _).mpr ⟨hok₁.mp hr₁, hok₂.mp hr₂⟩
  · exact fun o ho => (List.mem_append.mp ho).elim (hmem₁ o) (hmem₂ o)

/-- No access of the trace moved data to or from DMP memory. -/
def NoMemRW (tr : BusTrace σ) : Prop := ∀ o ∈ tr, o.event.reg ≠ some agb0RegMemRW

/-- The first failure of a function that stops there. -/
theorem lostFailure_concat {before : BusTrace σ} {o : Obs σ BusEvent BusEvent.Resp}
    (hbefore : AllOk before) (hbad : ¬ Good o.event o.resp)
    (hreg : o.event.reg ≠ some agb0RegPwrMgmt1) (hP : P before) :
    LostFailure P (before ++ [o]) :=
  ⟨before, o, [], rfl, hbefore, hbad, allOk_nil, hreg, hP⟩

theorem exec_executeW {reg : Byte} {data : List Byte} {retval : Status}
    (hexec : Prog.Exec env (executeW reg data) s tr retval s') :
    tr = [⟨s, .write reg data, retval⟩] := ((Prog.exec_perform _ _ _ _ _ _).mp hexec).2

/-- The loop of `write_mems` over two bytes: the address, then both bytes at once. -/
theorem exec_writeMemsLoop_two {reg : BitVec 16} {a b : Byte} {retval : Status}
    (hexec : Prog.Exec env (writeMemsLoop 2 reg [a, b]) s tr retval s') :
    ∃ start : Obs σ BusEvent BusEvent.Resp, start.event.reg = some agb0RegMemStartAddr ∧
      (¬ Good start.event start.resp ∧ tr = [start] ∧ retval ≠ Status.ok ∨
        Good start.event start.resp ∧ ∃ mem : Obs σ BusEvent BusEvent.Resp,
          mem.event.reg = some agb0RegMemRW ∧ tr = [start, mem] ∧
            (retval = Status.ok ↔ Good mem.event mem.resp)) := by
  rw [writeMemsLoop] at hexec
  swap
  · exact nofun
  obtain ⟨r₁, s₁, t₁, t₂, rfl, hstart, hexec₁⟩ := exec_guard.mp hexec
  obtain rfl := exec_executeW hstart
  refine ⟨⟨s, .write agb0RegMemStartAddr [loByte reg], r₁⟩, rfl, ?_⟩
  by_cases hr₁ : r₁ = Status.ok
  swap
  · rw [if_neg hr₁] at hexec₁
    obtain ⟨rfl, rfl, -⟩ := hexec₁
    exact Or.inl ⟨hr₁, rfl, hr₁⟩
  rw [if_pos hr₁] at hexec₁
  obtain ⟨r₂, s₂, t₂, t₃, rfl, hmem, hexec₂⟩ := exec_guard.mp hexec₁
  obtain rfl := exec_executeW hmem
  refine Or.inr ⟨hr₁, ⟨s₁, .write agb0RegMemRW [a, b], r₂⟩, rfl, ?_⟩
  by_cases hr₂ : r₂ = Status.ok
  · rw [if_pos hr₂] at hexec₂
    obtain ⟨rfl, rfl, -⟩ := hexec₂
    exact ⟨rfl, iff_of_true rfl hr₂⟩
  · rw [if_neg hr₂] at hexec₂
    obtain ⟨rfl, rfl, -⟩ := hexec₂
    exact ⟨rfl, Iff.rfl⟩

/-- Writing two bytes moves data only when the bank and the address could be set, and stops at the
first access that fails. -/
theorem exec_writeMems_two {reg : BitVec 16} {a b : Byte} {retval : Status}
    (hexec : Prog.Exec env ((writeMems reg (some [a, b])).run pdev) s tr (retval, pdev') s') :
    (retval = Status.ok ↔ AllOk tr) ∧
      (AllOk tr → ∃ o ∈ tr, o.event.reg = some agb0RegMemRW) ∧
      (¬ AllOk tr → LostFailure NoMemRW tr) := by
  obtain ⟨result, s₁, t₁, t₂, rfl, hsel, hexec₁⟩ := exec_writeMems.mp hexec
  -- selecting the bank is one access, or none when the driver believes it is selected
  have hsel' : NoMemRW t₁ ∧ (result = Status.ok ↔ AllOk t₁) ∧
      (result ≠ Status.ok → LostFailure NoMemRW t₁) := by
    rw [exec_selectMemsBank] at hsel
    split at hsel
    · obtain ⟨-, rfl, -⟩ := hsel
      have hreg {reg : Byte} (hne : agb0RegMemBankSel ≠ reg) :
          some agb0RegMemBankSel ≠ some reg := fun h => hne (Option.some.inj h)
      refine ⟨List.forall_mem_singleton.mpr (hreg (by decide)), ?_, fun hbad => ?_⟩
      · simp only [allOk_cons, allOk_nil, and_true, Good]
      · exact lostFailure_concat allOk_nil hbad (hreg (by decide)) (List.forall_mem_nil _)
    · obtain ⟨rfl, rfl, -, -⟩ := hsel
      exact ⟨List.forall_mem_nil _, iff_of_true rfl allOk_nil, fun h => absurd rfl h⟩
  obtain ⟨hmem, hok, hlost⟩ := hsel'
  by_cases hresult : result = Status.ok
  swap
  · rw [if_neg hresult] at hexec₁
    obtain ⟨rfl, rfl, -⟩ := hexec₁
    rw [List.append_nil]
    exact ⟨hok, fun h => absurd (hok.mpr h) hresult, fun _ => hlost hresult⟩
  rw [if_pos hresult] at hexec₁
  have hall := hok.mp hresult
  have happ (t : BusTrace σ) : AllOk (t₁ ++ t) ↔ AllOk t := by
    rw [allOk_append, and_iff_right hall]
  obtain ⟨start, hstart, ⟨hbad, rfl, hret⟩ | ⟨hgood, mem, hmemrw, rfl, hret⟩⟩ :=
    exec_writeMemsLoop_two hexec₁
  · -- `MEM_START_ADDR` failed, and nothing was written
    have hall' : ¬ AllOk (t₁ ++ [start]) := fun h =>
      hbad ((happ _).mp h start List.mem_cons_self)
    refine ⟨iff_of_false hret hall', fun h => absurd h hall', fun _ => ?_⟩
    exact lostFailure_concat hall hbad (by rw [hstart]; decide) hmem
  · -- the write to `MEM_R_W` is the last access, so its result is the function's
    have hall' : AllOk (t₁ ++ [start, mem]) ↔ Good mem.event mem.resp := by
      rw [happ, allOk_cons, allOk_cons, and_iff_right hgood,
        and_iff_left allOk_nil]
    refine ⟨hret.trans hall'.symm, fun _ => ⟨mem, by simp, hmemrw⟩, fun hbad => ?_⟩
    rw [hall'] at hbad
    rw [show t₁ ++ [start, mem] = (t₁ ++ [start]) ++ [mem] by simp]
    refine lostFailure_concat ((happ _).mpr ?_) hbad (by rw [hmemrw]; decide) ?_
    · exact List.forall_mem_singleton.mpr hgood
    · intro o ho
      rcases List.mem_append.mp ho with ho | ho
      · exact hmem o ho
      · rw [List.mem_singleton.mp ho, hstart]
        decide

/-- Of two such writes whose first result is dropped, it is the first that may fail. -/
theorem lostFailure_two {t₁ t₂ : BusTrace σ}
    (hmem : AllOk t₁ → ∃ o ∈ t₁, o.event.reg = some agb0RegMemRW)
    (hlost : ¬ AllOk t₁ → LostFailure NoMemRW t₁) :
    LostFailure NoMemRW (t₁ ++ t₂) ↔ ¬ AllOk t₁ ∧ AllOk t₂ := by
  constructor
  · rintro ⟨before, o, after, htr, hbefore, hbad, hafter, -, hno⟩
    -- a failure in `t₂` would come after the data of `t₁`
    rcases append_eq_append_cons htr with ⟨rest, rfl, rfl⟩ | ⟨rest, rfl, -⟩
    · exact ⟨fun h => hbad (h o List.mem_append_cons_self), ((allOk_append _ _).mp hafter).2⟩
    · obtain ⟨m, hm, hreg⟩ := hmem ((allOk_append _ _).mp hbefore).1
      exact absurd hreg (hno m (List.mem_append_left _ hm))
  · rintro ⟨h₁, h₂⟩
    obtain ⟨before, o, after, rfl, hbefore, hbad, hafter, hreg, hno⟩ := hlost h₁
    exact ⟨before, o, after ++ t₂, by simp only [List.append_assoc, List.cons_append], hbefore,
      hbad, (allOk_append _ _).mpr ⟨hafter, h₂⟩, hreg, hno⟩

/-- What `set_dmp_sensor_period` returns of its results after the first. -/
def periodResult (results : Status × Status) (result : Status) : Status :=
  if result ≠ Status.ok then result else if results.2 > result then results.2 else result

theorem periodResult_eq_ok (results : Status × Status) (result : Status) :
    periodResult results result = Status.ok ↔ result = Status.ok ∧ results.2 = Status.ok := by
  unfold periodResult
  by_cases hresult : result = Status.ok
  · subst hresult
    rw [if_neg (not_not_intro rfl), and_iff_right rfl]
    split
    · exact Iff.rfl
    · rename_i hle
      -- the results are unsigned, so what is not greater than `Ok` is `Ok`
      refine iff_of_true rfl ?_
      simpa [Status.ok] using hle
  · rw [if_pos hresult, and_iff_left_of_imp fun h => absurd h hresult]

theorem run_setDmpSensorPeriod (odrReg : BitVec 32) (interval : BitVec 16)
    (havail : pdev.dmpFirmwareAvailable = true) :
    (setDmpSensorPeriod odrReg interval).run pdev =
      (awake (writeSensorPeriod odrReg interval) periodResult).run pdev := by
  have hfin (results : Status × Status) (result : Status) :
      (if result ≠ Status.ok then pure result
        else if results.2 > result then pure results.2 else pure result : Drv Status) =
      pure (periodResult results result) := by
    unfold periodResult
    split_ifs <;> rfl
  change ((if pdev.dmpFirmwareAvailable = false then _ else _ : Drv Status)).run pdev = _
  rw [if_neg (not_eq_false_of_avail havail)]
  simp only [awake, hfin]

theorem setDmpSensorPeriod_sound_iff {odrReg : BitVec 32} {interval : BitVec 16}
    {retval : Status} (havail : pdev.dmpFirmwareAvailable = true)
    (hexec : Prog.Exec env ((setDmpSensorPeriod odrReg interval).run pdev) s tr (retval, pdev')
      s') :
    (retval = Status.ok → AllOk tr ∧ odrRegs odrReg ≠ none) ↔
      ¬ (LostFailure NoMemRW tr ∨ odrRegs odrReg = none ∧ AllOk tr) := by
  rw [run_setDmpSensorPeriod odrReg interval havail] at hexec
  obtain ⟨hret, hbad, hpwr⟩ | ⟨t₁, t₂, t₃, results, result, s₁, s₂, rfl, h₁, hpwr₁, hmem₁, hmid,
    hpwr₃, h₃, rfl⟩ := exec_awake hexec
  · refine iff_of_true (fun h => absurd h hret) (not_or.mpr ⟨?_, fun h => hbad h.2⟩)
    exact not_lostFailure_of_failsAtPwrMgmt1 hpwr
  have hP (t : BusTrace σ) : NoMemRW (t₁ ++ t) ↔ NoMemRW t := by
    unfold NoMemRW
    rw [List.forall_mem_append, and_iff_right hmem₁]
  rw [lostFailure_frame hpwr₁ hpwr₃ hP, periodResult_eq_ok, allOk_append, allOk_append, h₃]
  unfold writeSensorPeriod at hmid
  cases hregs : odrRegs odrReg with
  | none =>
    -- the `default:` of the switch writes nothing, and its result is lost
    simp only [hregs] at hmid
    obtain ⟨rfl, hpair, -⟩ := hmid
    obtain ⟨rfl, -⟩ := Prod.mk.inj hpair
    have hlost : ¬ LostFailure NoMemRW ([] : BusTrace σ) :=
      not_lostFailure_of_failsAtPwrMgmt1 (List.forall_mem_nil _)
    simp only [hlost, allOk_nil, ne_eq, not_true_eq_false]
    grind
  | some regs =>
    -- the interval, then the counter; the second result overwrites the first
    simp only [hregs] at hmid
    rw [StateT.run_bind, Prog.exec_bind] at hmid
    obtain ⟨⟨r₁, pdev₁⟩, s₃, ta, tb, rfl, hfirst, hmid₁⟩ := hmid
    rw [StateT.run_bind, Prog.exec_bind] at hmid₁
    obtain ⟨⟨r₂, pdev₂⟩, s₄, tb, tc, rfl, hsecond, hret⟩ := hmid₁
    obtain ⟨rfl, hpair, -⟩ := hret
    obtain ⟨rfl, -⟩ := Prod.mk.inj hpair
    obtain ⟨-, hmem, hlost⟩ := exec_writeMems_two hfirst
    obtain ⟨hok₂, -, -⟩ := exec_writeMems_two hsecond
    rw [List.append_nil, lostFailure_two hmem hlost, allOk_append, hok₂]
    simp only [reduceCtorEq, ne_eq, not_false_eq_true, false_and, or_false]
    grind

theorem run_enableDmpSensorInt_awake (delta : BitVec 16) (pdev : Device) :
    ((do
      let result ← sleep false
      if result ≠ Status.ok then return result
      let result ← lowPower false
      if result ≠ Status.ok then return result
      modify fun pdev => { pdev with dataIntrCtl := delta }
      let _result ← writeMems16 dataIntrCtlAddr delta
      lowPower true : Drv Status)).run pdev =
    (awake (do
      modify fun pdev => { pdev with dataIntrCtl := delta }
      writeMems16 dataIntrCtlAddr delta) fun _ result => result).run pdev := by
  simp only [awake, bind_assoc, bind_pure]

theorem lostFailure_append {t₁ t₂ : BusTrace σ} (h₁ : AllOk t₁) :
    LostFailure (fun _ => True) (t₁ ++ t₂) ↔ LostFailure (fun _ => True) t₂ := by
  have h : LostFailure (fun _ => True) (t₁ ++ (t₂ ++ [])) ↔
      AllOk t₁ ∧ LostFailure (fun _ => True) t₂ ∧ AllOk ([] : BusTrace σ) :=
    lostFailure_frame (fun o ho hbad => absurd (h₁ o ho) hbad) (List.forall_mem_nil _)
      fun _ => Iff.rfl
  rwa [List.append_nil, and_iff_right h₁, and_iff_left allOk_nil] at h

theorem enableDmpSensorInt_sound_iff {sensor : BitVec 32} {state : Int} {retval : Status}
    (havail : pdev.dmpFirmwareAvailable = true)
    (hexec : Prog.Exec env ((enableDmpSensorInt sensor state).run pdev) s tr (retval, pdev') s') :
    (retval = Status.ok → AllOk tr) ↔ ¬ LostFailure (fun _ => True) tr := by
  have hsound {tr : BusTrace σ} (hall : AllOk tr) :
      (retval = Status.ok → AllOk tr) ↔ ¬ LostFailure (fun _ => True) tr :=
    iff_of_true (fun _ => hall)
      (not_lostFailure_of_failsAtPwrMgmt1 fun o ho hbad => absurd (hall o ho) hbad)
  change Prog.Exec env ((if pdev.dmpFirmwareAvailable = false then _ else _ : Drv Status).run pdev)
    s tr (retval, pdev') s' at hexec
  rw [if_neg (not_eq_false_of_avail havail)] at hexec
  -- the early returns: no such Android sensor, or no control bits for it
  split at hexec
  · obtain ⟨rfl, -⟩ := hexec
    exact hsound allOk_nil
  rw [StateT.run_bind, Prog.exec_bind] at hexec
  obtain ⟨⟨delta, pdev₁⟩, s₁, t₁, t₂, rfl, hlift₁, hexec₁⟩ := hexec
  obtain ⟨hbits, rfl⟩ := (Prog.exec_lift _ _ _ _ _ _ _ _).mp hlift₁
  have h₁ : AllOk t₁ := (silent_controlBits _).allGood hbits
  split at hexec₁
  · obtain ⟨rfl, -⟩ := hexec₁
    exact hsound ((allOk_append _ _).mpr ⟨h₁, allOk_nil⟩)
  rw [StateT.run_bind, StateT.run_modify, pure_bind, StateT.run_bind, StateT.run_get, pure_bind,
    StateT.run_bind, Prog.exec_bind] at hexec₁
  obtain ⟨⟨delta', pdev₂⟩, s₂, t₂, t₃, rfl, hlift₂, hexec₂⟩ := hexec₁
  obtain ⟨hrebuild, rfl⟩ := (Prog.exec_lift _ _ _ _ _ _ _ _).mp hlift₂
  have h₂ : AllOk t₂ := (silent_rebuildIntr _ _).allGood hrebuild
  -- reading the tables is no bus access
  rw [lostFailure_append h₁, lostFailure_append h₂, allOk_append, and_iff_right h₁, allOk_append,
    and_iff_right h₂]
  rw [run_enableDmpSensorInt_awake] at hexec₂
  obtain ⟨hret, hbad, hpwr⟩ | ⟨ta, tb, tc, a, result, s₃, s₄, rfl, hta, hpwr₁, -, hmid, hpwr₃,
    htc, rfl⟩ := exec_awake hexec₂
  · exact iff_of_true (fun h => absurd h hret) (not_lostFailure_of_failsAtPwrMgmt1 hpwr)
  rw [lostFailure_frame hpwr₁ hpwr₃ fun _ => Iff.rfl, allOk_append, allOk_append, htc]
  obtain ⟨-, -, hlost⟩ := exec_writeMems_two hmid
  have hlost' : LostFailure (fun _ => True) tb ↔ ¬ AllOk tb := by
    constructor
    · rintro ⟨before, o, after, rfl, -, hbad, -⟩ hall
      exact hbad (hall o List.mem_append_cons_self)
    · intro hbad
      obtain ⟨before, o, after, htb, hbefore, ho, hafter, hreg, -⟩ := hlost hbad
      exact ⟨before, o, after, htb, hbefore, ho, hafter, hreg, trivial⟩
  rw [hlost']
  grind

end

/-! ## The transaction of peripheral 4 -/

section
variable {σ : Type} {env : Env σ BusEvent BusEvent.Resp} {s s' : σ} {tr : BusTrace σ}

/-- The accesses after a write that succeeded. -/
def afterWrite : BusTrace σ → Option (BusTrace σ)
  | ⟨_, .write _ _, (retval : Status)⟩ :: tr => if retval = Status.ok then some tr else none
  | _ => none

/-- What a poll leaves in `i2c_mst_status`: after a failed read, what was there before. -/
def polled (i2cMstStatus : Byte) (r : Read (Fin 1 → Byte)) : Byte :=
  if r.retval = Status.ok then r.val 0 else i2cMstStatus

/-- Follows at most `n` polls up to the one that finds the transaction done. -/
def afterPolls : Nat → Byte → BusTrace σ → Option (Byte × BusTrace σ)
  | n + 1, i2cMstStatus, ⟨_, .read _ 1, r⟩ :: tr =>
    if flag I2cMstStatus.i2cPeriph4Done (polled i2cMstStatus r) then
      some (polled i2cMstStatus r, tr)
    else afterPolls n (polled i2cMstStatus r) tr
  | _, _, _ => none

def afterKickOff (rw : Bool) (tr : BusTrace σ) : Option (BusTrace σ) :=
  if rw then afterWrite tr else (afterWrite tr).bind afterWrite

/-- From the state `i2c_mst_status` was left in, `n` bytes are moved: every write succeeds, and
every poll sequence ends in less than `max_cycles` polls at a status without `NACK`. -/
def Transferred (rw : Bool) : Nat → Byte → BusTrace σ → Prop
  | 0, _, _ => True
  | n + 1, i2cMstStatus, tr => ∃ tr₁ i2cMstStatus' tr₂, afterKickOff rw tr = some tr₁ ∧
      afterPolls (maxCycles - 1) i2cMstStatus tr₁ = some (i2cMstStatus', tr₂) ∧
      flag I2cMstStatus.i2cPeriph4Nack i2cMstStatus' = false ∧
      Transferred rw n i2cMstStatus' (if rw then tr₂.tail else tr₂)

/-- The last access succeeded, or there was none and `retval` is `Ok`. -/
def LastOk (retval : Status) (tr : BusTrace σ) : Prop :=
  match tr.getLast? with
  | none => retval = Status.ok
  | some o => Good o.event o.resp

theorem exec_kickOff {rw : Bool} {ctrl b : Byte} {retval : Status}
    (hexec : Prog.Exec env (kickOff rw ctrl b) s tr retval s') (before : Status)
    (rest : BusTrace σ) :
    afterKickOff rw (tr ++ rest) = (if retval = Status.ok then some rest else none) ∧
      (LastOk before tr ↔ retval = Status.ok) := by
  cases rw with
  | true =>
    obtain rfl := exec_executeW hexec
    exact ⟨rfl, Iff.rfl⟩
  | false =>
    -- the data byte goes to `I2C_PERIPH4_DO` before the control byte
    obtain ⟨r₁, s₁, t₁, t₂, rfl, hdo, hexec₁⟩ := exec_guard.mp hexec
    obtain rfl := exec_executeW hdo
    by_cases hr₁ : r₁ = Status.ok
    · rw [if_pos hr₁] at hexec₁
      obtain rfl := exec_executeW hexec₁
      exact ⟨by simp [afterKickOff, afterWrite, hr₁], Iff.rfl⟩
    · rw [if_neg hr₁] at hexec₁
      obtain ⟨rfl, rfl, -⟩ := hexec₁
      exact ⟨by simp [afterKickOff, afterWrite, hr₁], Iff.rfl⟩

theorem exec_readByte {reg dest : Byte} {r : Read Byte}
    (hexec : Prog.Exec env (readByte reg dest) s tr r s') :
    ∃ answer : Read (Fin 1 → Byte), tr = [⟨s, .read reg 1, answer⟩] ∧
      r = ⟨answer.retval, polled dest answer⟩ := by
  obtain ⟨answer, s₁, t₁, -, rfl, rfl, rfl, -⟩ := hexec
  refine ⟨answer, rfl, ?_⟩
  unfold polled
  split <;> rfl

theorem lastOk_append {r r' : Status} {t₁ t₂ : BusTrace σ} (h : LastOk r t₁ ↔ r' = Status.ok) :
    LastOk r (t₁ ++ t₂) ↔ LastOk r' t₂ := by
  cases t₂ using List.reverseRecOn with
  | nil => rw [List.append_nil, h]; rfl
  | append_singleton t o =>
    unfold LastOk
    simp only [← List.append_assoc, List.getLast?_concat]

theorem afterPolls_zero (i2cMstStatus : Byte) (tr : BusTrace σ) :
    afterPolls 0 i2cMstStatus tr = none := by
  unfold afterPolls
  rfl

/-- The loop ends after less than `max_cycles` polls exactly if those of the trace do. -/
theorem exec_pollPeriph4 (retval : Status) {left : Nat} {i2cMstStatus : Byte} {poll : Poll}
    (hleft : left ≤ maxCycles)
    (hexec : Prog.Exec env (pollPeriph4 left i2cMstStatus) s tr poll s') (rest : BusTrace σ) :
    afterPolls (left - 1) i2cMstStatus (tr ++ rest) =
        (if poll.count < maxCycles then some (poll.i2cMstStatus, rest) else none) ∧
      (LastOk retval tr ↔ poll.retval = Status.ok) := by
  -- on the polls that are left: the last of them ends the loop with `count` at `max_cycles`
  induction left generalizing i2cMstStatus retval s tr with
  | zero =>
    change Prog.Exec env (readByte _ _ >>= _) _ _ _ _ at hexec
    obtain ⟨r, s₁, t₁, t₂, rfl, hread, hret⟩ := (Prog.exec_bind _ _ _ _ _ _ _).mp hexec
    obtain ⟨answer, rfl, rfl⟩ := exec_readByte hread
    obtain ⟨rfl, rfl, -⟩ := hret
    exact ⟨(afterPolls_zero _ _).trans (if_neg (Nat.not_lt.mpr (Nat.le_succ _))).symm, Iff.rfl⟩
  | succ left ih =>
    change Prog.Exec env (readByte _ _ >>= _) _ _ _ _ at hexec
    obtain ⟨r, s₁, t₁, t₂, rfl, hread, hnext⟩ := (Prog.exec_bind _ _ _ _ _ _ _).mp hexec
    obtain ⟨answer, rfl, rfl⟩ := exec_readByte hread
    rw [lastOk_append (Iff.rfl : LastOk retval [_] ↔ _)]
    -- the loop tests what the poll left in `i2c_mst_status`, whether or not the read succeeded
    by_cases hdone : flag I2cMstStatus.i2cPeriph4Done (polled i2cMstStatus answer) = true
    · rw [if_pos hdone] at hnext
      obtain ⟨rfl, rfl, -⟩ := hnext
      refine ⟨?_, Iff.rfl⟩
      cases left with
      | zero => exact (afterPolls_zero _ _).trans (if_neg (Nat.lt_irrefl _)).symm
      | succ left =>
        rw [if_pos (by change maxCycles - (left + 1) < maxCycles; unfold maxCycles; omega)]
        exact if_pos hdone
    · rw [if_neg hdone] at hnext
      obtain ⟨hpolls, hlast⟩ := ih _ (Nat.le_of_succ_le hleft) hnext
      refine ⟨?_, hlast⟩
      cases left with
      | zero => rw [← hpolls, afterPolls_zero, afterPolls_zero]
      | succ left => exact (if_neg hdone).trans hpolls

theorem exec_fetchByte {rw : Bool} {b : Byte} {retval : Status} {r : Read Byte}
    (hexec : Prog.Exec env (fetchByte rw b retval) s tr r s') (rest : BusTrace σ) :
    (if rw then (tr ++ rest).tail else tr ++ rest) = rest ∧
      (LastOk retval tr ↔ r.retval = Status.ok) := by
  cases rw with
  | true =>
    obtain ⟨answer, rfl, rfl⟩ := exec_readByte hexec
    exact ⟨rfl, Iff.rfl⟩
  | false =>
    obtain ⟨rfl, rfl, -⟩ := hexec
    exact ⟨rfl, Iff.rfl⟩

theorem transferred_succ {rw : Bool} {n : Nat} {i2cMstStatus i2cMstStatus' : Byte}
    {tr₁ tr₂ : BusTrace σ} (hkick : afterKickOff rw tr = some tr₁)
    (hpolls : afterPolls (maxCycles - 1) i2cMstStatus tr₁ = some (i2cMstStatus', tr₂)) :
    Transferred rw (n + 1) i2cMstStatus tr ↔
      flag I2cMstStatus.i2cPeriph4Nack i2cMstStatus' = false ∧
        Transferred rw n i2cMstStatus' (if rw then tr₂.tail else tr₂) := by
  constructor
  · rintro ⟨u₁, status, u₂, hk, hp, hnack, hrest⟩
    obtain rfl := Option.some.inj (hkick.symm.trans hk)
    obtain ⟨rfl, rfl⟩ := Prod.mk.inj (Option.some.inj (hpolls.symm.trans hp))
    exact ⟨hnack, hrest⟩
  · exact fun h => ⟨tr₁, i2cMstStatus', tr₂, hkick, hpolls, h.1, h.2⟩

theorem Poll.txnFailed_eq_false (poll : Poll) :
    poll.txnFailed = false ↔
      flag I2cMstStatus.i2cPeriph4Nack poll.i2cMstStatus = false ∧ poll.count < maxCycles := by
  unfold Poll.txnFailed
  simp only [ge_iff_le, Bool.or_eq_false_iff, decide_eq_false_iff_not, not_le]

/-- The bytes are moved with a result of `Ok` exactly if the device moved them and the last access
succeeded. -/
theorem exec_periph4Bytes {rw : Bool} {ctrl : Byte} {data : List Byte} {i2cMstStatus : Byte}
    {retval : Status} {r : Read (List Byte)}
    (hexec : Prog.Exec env (periph4Bytes rw ctrl data i2cMstStatus retval) s tr r s') :
    r.retval = Status.ok ↔ Transferred rw data.length i2cMstStatus tr ∧ LastOk retval tr := by
  -- on the bytes: `i2c_mst_status` and `retval` are carried from one byte to the next
  induction data generalizing i2cMstStatus retval s tr r with
  | nil =>
    obtain ⟨rfl, rfl, -⟩ := hexec
    exact (and_iff_right trivial).symm
  | cons b data ih =>
    rw [periph4Bytes] at hexec
    obtain ⟨rk, s₁, t₁, t₂, rfl, hkick, hexec₁⟩ := exec_guard.mp hexec
    by_cases hrk : rk = Status.ok
    swap
    · rw [if_neg hrk] at hexec₁
      obtain ⟨rfl, rfl, -⟩ := hexec₁
      refine iff_of_false hrk ?_
      rintro ⟨⟨tr₁, -, -, hk, -⟩, -⟩
      rw [(exec_kickOff hkick retval []).1, if_neg hrk] at hk
      cases hk
    rw [if_pos hrk] at hexec₁
    obtain ⟨poll, s₂, tp, t₃, rfl, hpoll, hexec₂⟩ := (Prog.exec_bind _ _ _ _ _ _ _).mp hexec₁
    obtain ⟨hafterKick, hlastKick⟩ := exec_kickOff hkick retval (tp ++ t₃)
    rw [if_pos hrk] at hafterKick
    obtain ⟨hafterPolls, hlastPoll⟩ := exec_pollPeriph4 rk (Nat.le_refl _) hpoll t₃
    cases hfailed : poll.txnFailed with
    | true =>
      -- `NACK`, or the loop was left by its count
      rw [hfailed, if_pos rfl] at hexec₂
      obtain ⟨rfl, rfl, -⟩ := hexec₂
      refine iff_of_false (show Status.err ≠ Status.ok by decide) fun h => ?_
      by_cases hcount : poll.count < maxCycles
      · rw [if_pos hcount] at hafterPolls
        have hok := ((transferred_succ hafterKick hafterPolls).mp h.1).1
        rw [(Poll.txnFailed_eq_false poll).mpr ⟨hok, hcount⟩] at hfailed
        exact Bool.noConfusion hfailed
      · rw [if_neg hcount] at hafterPolls
        obtain ⟨tr₁, status, tr₂, hk, hp, -⟩ := h.1
        rw [← Option.some.inj (hafterKick.symm.trans hk), hafterPolls] at hp
        cases hp
    | false =>
      rw [hfailed, if_neg Bool.false_ne_true] at hexec₂
      obtain ⟨hnack, hcount⟩ := (Poll.txnFailed_eq_false poll).mp hfailed
      rw [if_pos hcount] at hafterPolls
      -- the results of the polls and of this byte's read are overwritten by what follows
      obtain ⟨byte, s₃, tf, t₄, rfl, hfetch, hexec₃⟩ := (Prog.exec_bind _ _ _ _ _ _ _).mp hexec₂
      obtain ⟨rest, s₄, tb, t₅, rfl, hrest, hret⟩ := (Prog.exec_bind _ _ _ _ _ _ _).mp hexec₃
      obtain ⟨rfl, rfl, rfl⟩ := hret
      obtain ⟨hafterFetch, hlastFetch⟩ := exec_fetchByte hfetch (tb ++ [])
      rw [List.length_cons, transferred_succ hafterKick hafterPolls, and_iff_right hnack,
        hafterFetch, lastOk_append hlastKick, lastOk_append hlastPoll, lastOk_append hlastFetch,
        List.append_nil]
      change rest.retval = Status.ok ↔ _
      exact ih hrest

/-- The address and the register are written, all bytes are moved, and the last access succeeds.
Two more locals are not initialised: `ctrl`, and the `i2c_mst_status` that the polls start from. -/
def TxnCompletes (rw : Bool) (len : Nat) (tr : BusTrace σ) : Prop :=
  ∃ (addr reg ctrl : Obs σ BusEvent BusEvent.Resp) (s₁ : σ) (i2cMstStatus : Fin 1 → Byte)
    (body : BusTrace σ),
    tr = addr :: reg :: ctrl :: ⟨s₁, .uninit 1, i2cMstStatus⟩ :: body ∧
      Good addr.event addr.resp ∧ Good reg.event reg.resp ∧
      Transferred rw len (i2cMstStatus 0) body ∧ LastOk Status.ok body

theorem periph4Txn_ok_iff {addr reg : Byte} {data : List Byte} {rw sendRegAddr : Bool}
    {r : Read (List Byte)}
    (hexec : Prog.Exec env (i2cControllerPeriph4Txn addr reg data rw sendRegAddr) s tr r s') :
    r.retval = Status.ok ↔ TxnCompletes rw data.length tr := by
  obtain ⟨r₁, s₁, t₁, t₂, rfl, haddr, hexec₁⟩ := exec_guard.mp hexec
  obtain rfl := exec_executeW haddr
  by_cases hr₁ : r₁ = Status.ok
  swap
  · rw [if_neg hr₁] at hexec₁
    obtain ⟨rfl, rfl, -⟩ := hexec₁
    refine iff_of_false hr₁ ?_
    rintro ⟨_, _, _, _, _, _, htr, -⟩
    cases htr
  rw [if_pos hr₁] at hexec₁
  obtain ⟨r₂, s₂, t₂, t₃, rfl, hreg, hexec₂⟩ := exec_guard.mp hexec₁
  obtain rfl := exec_executeW hreg
  by_cases hr₂ : r₂ = Status.ok
  swap
  · rw [if_neg hr₂] at hexec₂
    obtain ⟨rfl, rfl, -⟩ := hexec₂
    refine iff_of_false hr₂ ?_
    rintro ⟨_, _, _, _, _, _, htr, -⟩
    cases htr
  rw [if_pos hr₂] at hexec₂
  obtain ⟨ctrl, s₃, t₃, -, rfl, i2cMstStatus, s₄, body, -, rfl, hbytes⟩ := hexec₂
  subst hr₁ hr₂
  rw [exec_periph4Bytes hbytes]
  constructor
  · exact fun h => ⟨_, _, _, _, _, _, rfl, rfl, rfl, h.1, h.2⟩
  · rintro ⟨_, _, _, _, _, _, htr, -, -, h⟩
    cases htr
    exact h

end

/-! ## The eight functions together -/

/-- A call of one of the functions that make several accesses and return one status. -/
inductive DriverCall
  | i2cControllerPeriph4Txn (addr reg : Byte) (data : List Byte) (rw sendRegAddr : Bool)
  | setDmpSensorPeriod (odrReg : BitVec 32) (interval : BitVec 16)
  | enableDmpSensor (sensor : BitVec 32) (state : Int)
  | enableDmpSensorInt (sensor : BitVec 32) (state : Int)
  | setFullScale (sensors : Sensors) (fss : Fss)
  | getAgmt (pagmt : Option Agmt)
  | i2cMasterEnable (enable : Bool)
  | i2cControllerConfigurePeripheral (peripheral : Byte) (c : PeriphConfig)

/-- The status of a function that also fills something of the caller's. -/
def retvalIo {α : Type} (p : Io (Read α)) : Io Status := do
  let r ← p
  pure r.retval

def runDriver : DriverCall → Drv Status
  | .i2cControllerPeriph4Txn addr reg data rw sendRegAddr =>
    retvalIo (i2cControllerPeriph4Txn addr reg data rw sendRegAddr)
  | .setDmpSensorPeriod odrReg interval => setDmpSensorPeriod odrReg interval
  | .enableDmpSensor sensor state => enableDmpSensor sensor state
  | .enableDmpSensorInt sensor state => enableDmpSensorInt sensor state
  | .setFullScale sensors fss => setFullScale sensors fss
  | .getAgmt pagmt => retvalIo (getAgmt pagmt)
  | .i2cMasterEnable enable => i2cMasterEnable enable
  | .i2cControllerConfigurePeripheral peripheral c => i2cControllerConfigurePeripheral peripheral c

/-- `odr_reg` is one of the registers that `set_dmp_sensor_period` supports. -/
def DriverCall.Supported : DriverCall → Prop
  | .setDmpSensorPeriod odrReg _ => odrRegs odrReg ≠ none
  | _ => True

/-- The answers of the bus that the result does not tell from success. -/
def DriverCall.Drops {σ : Type} (call : DriverCall) (tr : BusTrace σ) : Prop :=
  match call with
  | .i2cControllerPeriph4Txn _ _ data rw _ => TxnCompletes rw data.length tr ∧ ¬ AllOk tr
  | .setDmpSensorPeriod odrReg _ => LostFailure NoMemRW tr ∨ odrRegs odrReg = none ∧ AllOk tr
  | .enableDmpSensorInt _ _ => LostFailure (fun _ => True) tr
  | _ => False

/-- With the DMP there, a result of `Ok` means that every access succeeded and that the arguments
are supported, exactly unless the bus answered in one of the ways of `Drops`. -/
theorem status_sound_iff {σ : Type} {env : Env σ BusEvent BusEvent.Resp} {call : DriverCall}
    {pdev pdev' : Device} {s s' : σ} {tr : BusTrace σ} {retval : Status}
    (havail : pdev.dmpFirmwareAvailable = true)
    (hexec : Prog.Exec env ((runDriver call).run pdev) s tr (retval, pdev') s') :
    (retval = Status.ok → AllOk tr ∧ call.Supported) ↔ ¬ call.Drops tr := by
  have hsound (hreports : DrvReports (runDriver call)) (hsupported : call.Supported)
      (hdrops : ¬ call.Drops tr) :
      (retval = Status.ok → AllOk tr ∧ call.Supported) ↔ ¬ call.Drops tr :=
    iff_of_true (fun hok => ⟨(hreports pdev).exec hexec hok, hsupported⟩) hdrops
  cases call with
  | i2cControllerPeriph4Txn addr reg data rw sendRegAddr =>
    obtain ⟨hio, -⟩ := (Prog.exec_lift _ _ _ _ _ _ _ _).mp hexec
    obtain ⟨r, s₁, t₁, t₂, rfl, htxn, hret⟩ := (Prog.exec_bind _ _ _ _ _ _ _).mp hio
    obtain ⟨rfl, rfl, rfl⟩ := hret
    rw [List.append_nil, periph4Txn_ok_iff htxn, DriverCall.Drops, not_and, not_not]
    exact imp_congr_right fun _ => and_iff_left trivial
  | setDmpSensorPeriod odrReg interval => exact setDmpSensorPeriod_sound_iff havail hexec
  | enableDmpSensor sensor state => exact hsound (drvReports_enableDmpSensor _ _) trivial id
  | enableDmpSensorInt sensor state =>
    rw [DriverCall.Drops, ← enableDmpSensorInt_sound_iff havail hexec]
    exact imp_congr_right fun _ => and_iff_left trivial
  | setFullScale sensors fss =>
    exact hsound (drvReports_lift (reports_setFullScale _ _)) trivial id
  | getAgmt pagmt =>
    refine hsound (drvReports_lift ?_) trivial id
    exact (reports_getAgmt pagmt).bind (fun _ => trivial) fun _ hbad => hbad
  | i2cMasterEnable enable =>
    exact hsound (drvReports_lift (reports_i2cMasterEnable _)) trivial id
  | i2cControllerConfigurePeripheral peripheral c =>
    exact hsound (drvReports_lift (reports_i2cControllerConfigurePeripheral _ _)) trivial id

/-- A bus on which only the writes to `MEM_START_ADDR` fail, and all registers read 0. -/
def noMemStart : Handler Unit BusEvent BusEvent.Resp
  | .read _ _, s => (⟨Status.ok, fun _ => 0⟩, s)
  | .write reg _, s => (if reg = agb0RegMemStartAddr then Status.err else Status.ok, s)
  | .uninit _, s => (fun _ => 0, s)
  | .spiOpen _ _, s => ((0 : Int), s)

/-- The device structure after `begin` in a build with the DMP. -/
def dmpDevice : Device := ⟨true, false, 255, 0, 0, 0, 0, 0, 0, 0, 0, 0, 0, 0⟩

/-- The interrupt of the accelerometer is switched on. -/
def accelInt : DriverCall := .enableDmpSensorInt 0 1

theorem status_sound_iff_accelInt :
    accelInt.Drops (Prog.trace noMemStart ((runDriver accelInt).run dmpDevice) ()) := by
  have hiff := status_sound_iff rfl
    (Prog.exec_run noMemStart ((runDriver accelInt).run dmpDevice) ())
  -- it returns `Ok` after a failure, so the failure has been dropped
  have hunsound : ¬ AllOk (Prog.trace noMemStart ((runDriver accelInt).run dmpDevice) ()) := by
    decide
  by_contra hdrops
  exact hunsound (hiff.mpr hdrops (by decide)).1

/-- The interrupt mask does not reach the DMP, and the result is `Ok`. -/
theorem accelInt_drops_failure :
    ¬ ∀ (σ : Type) (env : Env σ BusEvent BusEvent.Resp) (call : DriverCall) (pdev pdev' : Device)
      (s s' : σ) (tr : BusTrace σ) (retval : Status), pdev.dmpFirmwareAvailable = true →
        Prog.Exec env ((runDriver call).run pdev) s tr (retval, pdev') s' →
          retval = Status.ok → AllOk tr ∧ call.Supported := by
  intro hall
  have hok := (hall Unit noMemStart.env accelInt dmpDevice _ _ _ _ _ rfl
    (Prog.exec_run noMemStart ((runDriver accelInt).run dmpDevice) ()) (by decide)).1
  exact absurd hok (by decide)

end SimuSound.Imu
