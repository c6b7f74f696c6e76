import SimuSound.Imu.SensorSets
import SimuSound.Imu.StatusSoundness

/-!
# SensorRollback — what a failed sensor request leaves behind

The sets of enabled sensors are changed before anything is written to the DMP, and they stay changed
when the writing fails.  Whatever call comes next writes control words for the changed sets.
-/

namespace SimuSound.Imu

open Reasoning

/-! ## Recording a sensor -/

theorem switchBit_eq_self {word : BitVec 32} {i : ℕ} (hi : i < 32) {state : Int}
    (h : i ∈ BitSet.members word ↔ state ≠ 0) : switchBit word i state = word := by
  apply BitSet.eq_of_members
  rw [members_switchBit word hi, switched_eq_self_iff]
  exact h

theorem switchWords_eq_self {word0 word1 : BitVec 32} {a : ℕ} (hlt : a < 64) {state : Int}
    (h : a ∈ sensorsIn word0 word1 ↔ state ≠ 0) :
    (a < 32 → switchBit word0 a state = word0) ∧
      (¬ a < 32 → switchBit word1 (a - 32) state = word1) := by
  rw [mem_sensorsIn] at h
  constructor
  · intro ha
    rw [if_pos ha] at h
    exact switchBit_eq_self ha h
  · intro ha
    rw [if_neg ha] at h
    exact switchBit_eq_self (by omega) h

/-- Recording a sensor changes nothing exactly if it is as requested. -/
theorem SensorCall.recorded_record_iff {call : SensorCall} {pdev : Device}
    (hlt : call.androidSensor < 64) :
    (call.record pdev).recorded = pdev.recorded ↔ call.AsRequested pdev := by
  constructor
  · intro h
    apply switched_eq_self_iff.mp
    rw [← call.switches_record pdev hlt]
    cases call with
    | enable sensor state => exact enabled_of_recorded h
    | enableInt sensor state => exact enabledIntr_of_recorded h
  · intro h
    cases call with
    | enable sensor state =>
      have hlt : sensorType2AndroidSensor sensor < 64 := hlt
      have h : sensorType2AndroidSensor sensor ∈
          sensorsIn pdev.enabledAndroid0 pdev.enabledAndroid1 ↔ state ≠ 0 := h
      -- one of the two words is assigned
      obtain ⟨hlow, hhigh⟩ := switchWords_eq_self hlt h
      show (pdev.switchSensor (sensorType2AndroidSensor sensor) state).recorded = _
      unfold Device.switchSensor
      by_cases ha : sensorType2AndroidSensor sensor < 32
      · rw [if_pos ha, hlow ha]
      · rw [if_neg ha, hhigh ha]
    | enableInt sensor state =>
      have hlt : sensorType2AndroidSensor sensor < 64 := hlt
      have h : sensorType2AndroidSensor sensor ∈
          sensorsIn pdev.enabledAndroidIntr0 pdev.enabledAndroidIntr1 ↔ state ≠ 0 := h
      obtain ⟨hlow, hhigh⟩ := switchWords_eq_self hlt h
      show (pdev.switchSensorInt (sensorType2AndroidSensor sensor) state).recorded = _
      unfold Device.switchSensorInt
      by_cases ha : sensorType2AndroidSensor sensor < 32
      · rw [if_pos ha, hlow ha]
      · rw [if_neg ha, hhigh ha]

/-! ## The lookup in the table -/

section
variable {σ : Type} {env : Env σ BusEvent BusEvent.Resp} {pdev pdev' : Device} {s s' : σ}
  {tr : BusTrace σ} {retval : Status} {call : SensorCall}

/-- The entry that the call looks up; past the end of the table, what lay there. -/
def SensorCall.entry (call : SensorCall) (tr : BusTrace σ) : BitVec 16 :=
  if call.androidSensor < androidSensorNumMax then controlBitsOf call.androidSensor
  else match tr with
    | ⟨_, .uninit 2, garbage⟩ :: _ => garbage 1 ++ garbage 0
    | _ => 0xFFFF

/-- The call does not refuse the sensor; one that looks nothing up does. -/
def SensorCall.Accepts (call : SensorCall) (tr : BusTrace σ) : Prop := call.entry tr ≠ 0xFFFF

/-- A call either refuses its sensor or records it and configures the DMP. -/
theorem exec_sensorCall (havail : pdev.dmpFirmwareAvailable = true)
    (hexec : Prog.Exec env (call.run.run pdev) s tr (retval, pdev') s') :
    (¬ call.Accepts tr ∧ retval = Status.sensorNotSupported ∧ pdev' = pdev) ∨
      (call.Accepts tr ∧ call.androidSensor < 64 ∧ ∃ t₁ t₂ s₁, tr = t₁ ++ t₂ ∧
        AllOk t₁ ∧
        Prog.Exec env (call.reconfigure.run (call.record pdev)) s₁ t₂ (retval, pdev') s') := by
  by_cases hsupported : Supported call.androidSensor
  · have hentry : call.entry tr = controlBitsOf call.androidSensor := if_pos hsupported.1
    rw [SensorCall.run_supported havail hsupported] at hexec
    refine Or.inr ⟨?_, hsupported.lt, [], tr, s, rfl, allOk_nil, hexec⟩
    rw [SensorCall.Accepts, hentry]
    exact hsupported.2
  by_cases hwithin : call.WithinTable
  · rw [SensorCall.run_unsupported havail hsupported hwithin] at hexec
    obtain ⟨rfl, hpair, -⟩ := hexec
    obtain ⟨hretval, rfl⟩ := Prod.mk.inj hpair
    refine Or.inl ⟨not_not_intro ?_, hretval, rfl⟩
    unfold SensorCall.entry
    split
    · rename_i hlt
      exact controlBitsOf_eq_of_unsupported hsupported hlt
    · rfl
  · -- the interrupt of the sensor whose number is the size of the table
    cases call with
    | enable sensor state => exact absurd trivial hwithin
    | enableInt sensor state =>
      have hnum : sensorType2AndroidSensor sensor = androidSensorNumMax := not_not.mp hwithin
      change Prog.Exec env ((if pdev.dmpFirmwareAvailable = false then _ else _ : Drv Status).run _)
        _ _ _ _ at hexec
      rw [if_neg (not_eq_false_of_avail havail), hnum, if_neg (Nat.lt_irrefl _)] at hexec
      obtain ⟨garbage, s₁, t₁, -, rfl, hrest⟩ := hexec
      have hentry : (SensorCall.enableInt sensor state).entry
          (⟨s, .uninit 2, garbage⟩ :: t₁) = garbage 1 ++ garbage 0 :=
        if_neg (fun h => absurd hnum (Nat.ne_of_lt h))
      change Prog.Exec env ((if garbage 1 ++ garbage 0 = (0xFFFF : BitVec 16) then _ else _ :
        Drv Status).run pdev) _ _ _ _ at hrest
      by_cases hbits : garbage 1 ++ garbage 0 = (0xFFFF : BitVec 16)
      · rw [if_pos hbits] at hrest
        obtain ⟨-, hpair, -⟩ := hrest
        obtain ⟨hretval, rfl⟩ := Prod.mk.inj hpair
        exact Or.inl ⟨not_not_intro (hentry.trans hbits), hretval, rfl⟩
      · rw [if_neg hbits] at hrest
        refine Or.inr ⟨?_, ?_, [_], t₁, s₁, rfl, List.forall_mem_singleton.mpr trivial, ?_⟩
        · rw [SensorCall.Accepts, hentry]
          exact hbits
        · show sensorType2AndroidSensor sensor < 64
          rw [hnum]
          decide
        · show Prog.Exec env (reconfigureInterrupts.run
            (pdev.switchSensorInt (sensorType2AndroidSensor sensor) state)) _ _ _ _
          rw [hnum]
          exact hrest

end

/-! ## Which failures are reported -/

section
variable {σ : Type} {env : Env σ BusEvent BusEvent.Resp}

/-- The result is `Ok` exactly when every access succeeded. -/
def DrvTells (env : Env σ BusEvent BusEvent.Resp) (p : Drv Status) : Prop :=
  ∀ pdev s tr retval pdev' s', Prog.Exec env (p.run pdev) s tr (retval, pdev') s' →
    (retval = Status.ok ↔ AllOk tr)

theorem drvTells_updatePwrMgmt1 (assign : Byte → Byte) :
    DrvTells env (liftM (updateReg 0 agb0RegPwrMgmt1 assign)) := by
  intro pdev s tr retval pdev' s' hexec
  exact (exec_updatePwrMgmt1 ((Prog.exec_lift _ _ _ _ _ _ _ _).mp hexec).1).1

theorem drvTells_writeMems16 (reg value : BitVec 16) : DrvTells env (writeMems16 reg value) :=
  fun _ _ _ _ _ _ hexec => (exec_writeMems_two hexec).1

theorem DrvTells.guard {p : Drv Status} {q : Status → Drv Status} (hp : DrvTells env p)
    (hq : ∀ retval, DrvTells env (q retval)) :
    DrvTells env
      (p >>= fun retval => if retval ≠ Status.ok then pure retval else q retval) := by
  intro pdev s tr retval pdev' s' hexec
  -- a failure of the first step is returned as it is
  obtain ⟨r, pdev₁, s₁, t₁, t₂, rfl, hstep, hrest⟩ := exec_guardM.mp hexec
  have hr := hp _ _ _ _ _ _ hstep
  by_cases hok : r = Status.ok
  · rw [if_pos hok] at hrest
    rw [hq r _ _ _ _ _ _ hrest, allOk_append, and_iff_right (hr.mp hok)]
  · rw [if_neg hok] at hrest
    obtain ⟨rfl, rfl, -⟩ := hrest
    rw [hr, List.append_nil]

theorem DrvTells.afterModify {f : Device → Device} {q : PUnit → Drv Status}
    (hq : DrvTells env (q ⟨⟩)) : DrvTells env (modify f >>= q) := fun pdev => hq (f pdev)

theorem DrvTells.afterGet {q : Device → Drv Status} (hq : ∀ pdev, DrvTells env (q pdev)) :
    DrvTells env (get >>= q) := fun pdev => hq pdev pdev

/-- Steps that read the table of control bits. -/
theorem DrvTells.afterSilent {α : Type} {p : Io α} {q : α → Drv Status}
    (hp : p.Uses fun e => ∀ r, Good e r) (hq : ∀ a, DrvTells env (q a)) :
    DrvTells env (liftM p >>= q) := by
  intro pdev s tr retval pdev' s' hexec
  obtain ⟨a, pdev₁, s₁, t₁, t₂, rfl, hstep, hrest⟩ := Prog.exec_bindM.mp hexec
  obtain ⟨hsilent, -⟩ := (Prog.exec_lift _ _ _ _ _ _ _ _).mp hstep
  rw [hq a _ _ _ _ _ _ hrest, allOk_append, and_iff_right (hp.allGood hsilent)]

theorem drvTells_configureOutputs (acc : Rebuild) : DrvTells env (configureOutputs acc) := by
  unfold configureOutputs wakeFor writeOutputs
  refine .guard (drvTells_updatePwrMgmt1 _) fun _ => .guard (drvTells_updatePwrMgmt1 _) fun _ => ?_
  refine .afterModify (.guard (drvTells_writeMems16 _ _) fun _ => ?_)
  refine .afterModify (.guard (drvTells_writeMems16 _ _) fun _ => ?_)
  refine .afterModify (.guard (drvTells_writeMems16 _ _) fun _ => ?_)
  exact .afterModify (.guard (drvTells_writeMems16 _ _) fun _ => drvTells_updatePwrMgmt1 _)

end

/-- The accesses whose failure a call reports: `enable_dmp_sensor_int` overwrites the result of
writing the interrupt mask. -/
def SensorCall.Reported {σ : Type} (call : SensorCall) (o : Obs σ BusEvent BusEvent.Resp) : Prop :=
  match call with
  | .enable _ _ => True
  | .enableInt _ _ => o.event.reg = some agb0RegPwrMgmt1

/-- No access failed whose failure the call reports. -/
def SensorCall.BusGood {σ : Type} (call : SensorCall) (tr : BusTrace σ) : Prop :=
  ∀ o ∈ tr, call.Reported o → Good o.event o.resp

section
variable {σ : Type} {env : Env σ BusEvent BusEvent.Resp} {pdev pdev' : Device} {s s' : σ}
  {tr : BusTrace σ} {retval : Status}

theorem SensorCall.busGood_append {call : SensorCall} {t₁ t₂ : BusTrace σ} (h : AllOk t₁) :
    call.BusGood (t₁ ++ t₂) ↔ call.BusGood t₂ := by
  unfold SensorCall.BusGood
  rw [List.forall_mem_append, and_iff_right]
  exact fun o ho _ => h o ho

theorem configureInterrupts_ok_iff {delta : BitVec 16}
    (hexec : Prog.Exec env ((configureInterrupts delta).run pdev) s tr (retval, pdev') s') :
    retval = Status.ok ↔
      ∀ o ∈ tr, o.event.reg = some agb0RegPwrMgmt1 → Good o.event o.resp := by
  rw [configureInterrupts, wakeFor, writeInterrupts, run_enableDmpSensorInt_awake] at hexec
  obtain ⟨hret, hbad, hpwr⟩ |
    ⟨t₁, t₂, t₃, a, result, s₁, s₂, rfl, h₁, -, -, hmid, hpwr₃, h₃, rfl⟩ := exec_awake hexec
  · apply iff_of_false hret
    intro hall
    apply hbad
    intro o ho
    by_contra hfail
    exact hfail (hall o ho (hpwr o ho hfail))
  · -- the mask is written without an access to `PWR_MGMT_1`
    have hne {reg : Byte} (h : agb0RegPwrMgmt1 ≠ reg) : some reg ≠ some agb0RegPwrMgmt1 :=
      fun heq => h (Option.some.inj heq).symm
    have huses : Prog.UsesFrom (fun e => e.reg ≠ some agb0RegPwrMgmt1)
        (writeMems16 dataIntrCtlAddr delta) :=
      uses_writeMems (fun _ => hne (by decide)) (fun _ => hne (by decide))
        (fun _ => hne (by decide)) _ _
    have h₂ : ∀ o ∈ t₂, o.event.reg ≠ some agb0RegPwrMgmt1 :=
      (huses { pdev with dataIntrCtl := delta }).exec hmid
    -- what is returned is the result of the last access to `PWR_MGMT_1`
    rw [h₃]
    constructor
    · intro hall o ho hreg
      rcases List.mem_append.mp ho with ho | ho
      · exact h₁ o ho
      rcases List.mem_append.mp ho with ho | ho
      · exact absurd hreg (h₂ o ho)
      · exact hall o ho
    · intro hall o ho
      by_contra hfail
      exact hfail (hall o (by simp [ho]) (hpwr₃ o ho hfail))

theorem drvTells_reconfigureOutputs : DrvTells env reconfigureOutputs := by
  unfold reconfigureOutputs
  apply DrvTells.afterGet
  intro pdev
  apply DrvTells.afterSilent (silent_rebuild _ _)
  exact drvTells_configureOutputs

theorem SensorCall.reconfigure_ok_iff {call : SensorCall}
    (hexec : Prog.Exec env (call.reconfigure.run pdev) s tr (retval, pdev') s') :
    retval = Status.ok ↔ call.BusGood tr := by
  cases call with
  | enable sensor state =>
    rw [drvTells_reconfigureOutputs _ _ _ _ _ _ hexec]
    exact forall₂_congr fun _ _ => (imp_iff_right trivial).symm
  | enableInt sensor state =>
    rw [SensorCall.reconfigure, reconfigureInterrupts, StateT.run_bind, StateT.run_get,
      pure_bind] at hexec
    obtain ⟨delta, pdev₁, s₁, t₁, t₂, rfl, hstep, hrest⟩ := Prog.exec_bindM.mp hexec
    obtain ⟨hrebuild, -⟩ := (Prog.exec_lift _ _ _ _ _ _ _ _).mp hstep
    rw [SensorCall.busGood_append ((silent_rebuildIntr _ _).allGood hrebuild)]
    exact configureInterrupts_ok_iff hrest

end

/-! ## The control words -/

/-- The control word of the call is the one for the sensors recorded. -/
def SensorCall.InForce (call : SensorCall) (pdev : Device) : Prop :=
  match call with
  | .enable _ _ => InTable pdev.enabled → pdev.dataOutCtl1 = controlWord pdev.enabled
  | .enableInt _ _ => InTable pdev.enabledIntr → pdev.dataIntrCtl = controlWord pdev.enabledIntr

section
open Prog

variable {σ : Type} {env : Env σ BusEvent BusEvent.Resp} {pdev pdev' : Device} {s s' : σ}
  {tr : BusTrace σ} {retval : Status}

theorem exec_wakeFor_ok {p : Drv Status} (hok : retval = Status.ok)
    (hexec : Exec env ((wakeFor p).run pdev) s tr (retval, pdev') s') :
    ∃ s₁ t₁, t₁ <:+ tr ∧ Exec env (p.run pdev) s₁ t₁ (retval, pdev') s' := by
  subst hok
  unfold wakeFor at hexec
  obtain ⟨s₁, t₁, t₂, rfl, -, hexec₁⟩ := exec_lift_ok.mp hexec
  obtain ⟨s₂, t₃, t₄, rfl, -, hexec₂⟩ := exec_lift_ok.mp hexec₁
  exact ⟨s₂, t₄, (List.suffix_append _ _).trans (List.suffix_append _ _), hexec₂⟩

/-- `_dataOutCtl1` is set first, and then left alone. -/
theorem ends_writeOutputs (acc : Rebuild) (pdev : Device) :
    Ends (fun r : Status × Device => r.2.dataOutCtl1 = acc.delta)
      ((writeOutputs acc).run pdev) := by
  have hfirst : Leaves Device.dataOutCtl1 (writeMems16 dataOutCtl1Addr acc.delta) :=
    leaves_writeMems (fun _ _ => rfl) _ _
  -- the assignment comes first; what follows can fail, but assigns only the other three words
  unfold writeOutputs
  rw [StateT.run_bind, StateT.run_modify, pure_bind, StateT.run_bind, ends_bind]
  apply (hfirst _).mono
  intro r hr
  refine Ends.mono (fun r' hr' => Eq.trans hr' hr) (Leaves.ite (leaves_pure _) ?_ r.2)
  refine leaves_controlWord (fun _ => by rfl) (fun _ _ => by rfl) ?_
  refine leaves_controlWord (fun _ => by rfl) (fun _ _ => by rfl) ?_
  refine leaves_controlWord (fun _ => by rfl) (fun _ _ => by rfl) ?_
  exact leaves_lift _

theorem ends_writeInterrupts (delta : BitVec 16) (pdev : Device) :
    Ends (fun r : Status × Device => r.2.dataIntrCtl = delta)
      ((writeInterrupts delta).run pdev) := by
  have hrest : Leaves Device.dataIntrCtl (do
      let _result ← writeMems16 dataIntrCtlAddr delta
      lowPower true) :=
    (leaves_writeMems (fun _ _ => rfl) _ _).bind fun _ => leaves_lift _
  exact hrest { pdev with dataIntrCtl := delta }

theorem SensorCall.inForce_reconfigure {call : SensorCall} (hok : retval = Status.ok)
    (hexec : Exec env (call.reconfigure.run pdev) s tr (retval, pdev') s') :
    call.InForce pdev' := by
  have hrecorded : pdev'.recorded = pdev.recorded := (call.leaves_reconfigure pdev).exec hexec
  cases call with
  | enable sensor state =>
    intro htable
    rw [enabled_of_recorded hrecorded] at htable ⊢
    rw [SensorCall.reconfigure, run_reconfigureOutputs htable] at hexec
    obtain ⟨s₁, t₁, -, hwrite⟩ := exec_wakeFor_ok hok hexec
    exact (ends_writeOutputs _ _).exec hwrite
  | enableInt sensor state =>
    intro htable
    rw [enabledIntr_of_recorded hrecorded] at htable ⊢
    rw [SensorCall.reconfigure, run_reconfigureInterrupts htable] at hexec
    obtain ⟨s₁, t₁, -, hwrite⟩ := exec_wakeFor_ok hok hexec
    exact (ends_writeInterrupts _ _).exec hwrite

end

/-! ## The control words on the bus -/

/-- The copy of its control word that a call keeps. -/
def SensorCall.copy (call : SensorCall) (pdev : Device) : BitVec 16 :=
  match call with
  | .enable _ _ => pdev.dataOutCtl1
  | .enableInt _ _ => pdev.dataIntrCtl

/-- Where the word lies in the DMP's memory. -/
def SensorCall.wordAddr : SensorCall → BitVec 16
  | .enable _ _ => dataOutCtl1Addr
  | .enableInt _ _ => dataIntrCtlAddr

section
open Prog

variable {σ : Type} {env : Env σ BusEvent BusEvent.Resp} {pdev pdev' : Device} {s s' : σ}
  {tr : BusTrace σ} {retval : Status} {reg word : BitVec 16}

/-- The word's address and its two bytes went to the device, one after the other. -/
def WroteWord (reg word : BitVec 16) (tr : BusTrace σ) : Prop :=
  ∃ s₁ s₂, [⟨s₁, .write agb0RegMemStartAddr [loByte reg], Status.ok⟩,
    ⟨s₂, .write agb0RegMemRW [hiByte word, loByte word], Status.ok⟩] <:+: tr

theorem WroteWord.mono {t : BusTrace σ} (h : WroteWord reg word t) (ht : t <:+: tr) :
    WroteWord reg word tr := by
  obtain ⟨s₁, s₂, hwrote⟩ := h
  exact ⟨s₁, s₂, hwrote.trans ht⟩

theorem wroteWord_writeMems16
    (hexec : Exec env ((writeMems16 reg word).run pdev) s tr (Status.ok, pdev') s') :
    WroteWord reg word tr := by
  obtain ⟨result, s₁, t₁, t₂, rfl, -, hloop⟩ := exec_writeMems.mp hexec
  apply WroteWord.mono ?_ (List.suffix_append t₁ t₂).isInfix
  split at hloop
  · change Exec env (writeMemsLoop 2 reg [hiByte word, loByte word]) s₁ t₂ Status.ok s' at hloop
    rw [writeMemsLoop] at hloop
    swap
    · exact fun hnil => absurd hnil (List.cons_ne_nil _ _)
    obtain ⟨r₁, s₂, t₃, t₄, rfl, hstart, hrest⟩ := exec_guard.mp hloop
    obtain rfl := exec_executeW hstart
    split at hrest
    · rename_i hr₁
      obtain ⟨r₂, s₃, t₅, t₆, rfl, hmem, hend⟩ := exec_guard.mp hrest
      obtain rfl := exec_executeW hmem
      split at hend
      · rename_i hr₂
        rw [hr₁, hr₂]
        exact ⟨s₁, s₂, (List.prefix_append _ t₆).isInfix⟩
      · rename_i hr₂
        exact absurd hend.2.1.symm hr₂
    · rename_i hr₁
      exact absurd hrest.2.1.symm hr₁
  · rename_i hbad
    exact absurd hloop.2.1.symm hbad

theorem wroteWord_reconfigure {call : SensorCall} (hgood : AllOk tr)
    (hexec : Exec env (call.reconfigure.run pdev) s tr (retval, pdev') s') :
    WroteWord call.wordAddr (call.copy pdev') tr := by
  have hok : retval = Status.ok :=
    (SensorCall.reconfigure_ok_iff hexec).mpr fun o ho _ => hgood o ho
  cases call with
  | enable sensor state =>
    rw [SensorCall.reconfigure, reconfigureOutputs, StateT.run_bind, StateT.run_get,
      pure_bind] at hexec
    obtain ⟨acc, pdev₁, s₁, t₁, t₂, rfl, -, hrest⟩ := exec_bindM.mp hexec
    obtain ⟨s₂, t₃, hsuffix, hwrite⟩ := exec_wakeFor_ok hok hrest
    have hcopy : pdev'.dataOutCtl1 = acc.delta := (ends_writeOutputs acc pdev₁).exec hwrite
    subst hok
    rw [writeOutputs, StateT.run_bind, StateT.run_modify, pure_bind] at hwrite
    obtain ⟨pdev₂, s₃, t₄, t₅, rfl, hword, -⟩ := exec_guardM_ok.mp hwrite
    show WroteWord dataOutCtl1Addr pdev'.dataOutCtl1 (t₁ ++ t₂)
    rw [hcopy]
    refine (wroteWord_writeMems16 hword).mono ?_
    exact (List.prefix_append t₄ t₅).isInfix.trans
      (hsuffix.trans (List.suffix_append t₁ t₂)).isInfix
  | enableInt sensor state =>
    rw [SensorCall.reconfigure, reconfigureInterrupts, StateT.run_bind, StateT.run_get,
      pure_bind] at hexec
    obtain ⟨delta, pdev₁, s₁, t₁, t₂, rfl, -, hrest⟩ := exec_bindM.mp hexec
    obtain ⟨s₂, t₃, hsuffix, hwrite⟩ := exec_wakeFor_ok hok hrest
    have hcopy : pdev'.dataIntrCtl = delta := (ends_writeInterrupts delta pdev₁).exec hwrite
    have hgood₃ : AllOk t₃ := fun o ho => hgood o (List.mem_append_right _ (hsuffix.mem ho))
    rw [writeInterrupts, StateT.run_bind, StateT.run_modify, pure_bind] at hwrite
    obtain ⟨result, pdev₂, s₃, t₄, t₅, rfl, hword, -⟩ := exec_bindM.mp hwrite
    -- the result is dropped, but the accesses have succeeded
    obtain rfl : result = Status.ok :=
      (drvTells_writeMems16 _ _ _ _ _ _ _ _ hword).mpr (allOk_append t₄ t₅ |>.mp hgood₃).1
    show WroteWord dataIntrCtlAddr pdev'.dataIntrCtl (t₁ ++ t₂)
    rw [hcopy]
    refine (wroteWord_writeMems16 hword).mono ?_
    exact (List.prefix_append t₄ t₅).isInfix.trans
      (hsuffix.trans (List.suffix_append t₁ t₂)).isInfix

end

/-! ## What a failed request does to later ones -/

section
variable {σ : Type} {env : Env σ BusEvent BusEvent.Resp} {w w' : Device × σ}
  {x : SensorCalled σ} {call : SensorCall}

/-- A call leaves the DMP there and the other sensors as they are. -/
theorem others_sensorStep (hstep : sensorStep env w x w')
    (havail : w.1.dmpFirmwareAvailable = true) :
    w'.1.dmpFirmwareAvailable = true ∧ ∀ a, x.call.androidSensor ≠ a →
      (a ∈ w'.1.enabled ↔ a ∈ w.1.enabled) ∧ (a ∈ w'.1.enabledIntr ↔ a ∈ w.1.enabledIntr) := by
  rcases exec_sensorCall havail hstep with ⟨-, -, hpdev⟩ | ⟨-, hlt, t₁, t₂, s₁, -, -, hrest⟩
  · rw [hpdev]
    exact ⟨havail, fun a _ => ⟨Iff.rfl, Iff.rfl⟩⟩
  · have hrecorded : w'.1.recorded = (x.call.record w.1).recorded :=
      (x.call.leaves_reconfigure (x.call.record w.1)).exec hrest
    refine ⟨?_, fun a ha => ?_⟩
    · rw [avail_of_recorded hrecorded, x.call.avail_record]
      exact havail
    · rw [enabled_of_recorded hrecorded, enabledIntr_of_recorded hrecorded]
      exact x.call.mem_record_of_ne hlt ha

/-- The sets are as before the call.  In every later run of calls for other sensors the sensor stays
on or off as it was before the call, and what a successful one puts in force is what is recorded. -/
def NoDelayedEffect (env : Env σ BusEvent BusEvent.Resp) (call : SensorCall) (pdev : Device)
    (w' : Device × σ) : Prop :=
  w'.1.recorded = pdev.recorded ∧
    ∀ tr w'', Run (sensorStep env) w' tr w'' →
      (∀ x ∈ tr, x.label.call.androidSensor ≠ call.androidSensor) → ∀ x ∈ tr,
        (call.androidSensor ∈ x.post.1.enabled ↔ call.androidSensor ∈ pdev.enabled) ∧
        (call.androidSensor ∈ x.post.1.enabledIntr ↔ call.androidSensor ∈ pdev.enabledIntr) ∧
        (x.label.retval = Status.ok → x.label.call.InForce x.post.1)

theorem inForce_sensorStep (hstep : sensorStep env w x w')
    (havail : w.1.dmpFirmwareAvailable = true) (hok : x.retval = Status.ok) :
    x.call.InForce w'.1 := by
  rcases exec_sensorCall havail hstep with ⟨-, hretval, -⟩ | ⟨-, -, t₁, t₂, s₁, -, -, hrest⟩
  · exact absurd (hretval.symm.trans hok) (by decide)
  · exact SensorCall.inForce_reconfigure hok hrest

/-- What a call puts in force is on the bus: it has written its word for the sensors recorded. -/
theorem controlWord_on_bus (hstep : sensorStep env w x w')
    (havail : w.1.dmpFirmwareAvailable = true) (haccepts : x.call.Accepts x.trace)
    (hgood : AllOk x.trace) (htable : InTable (x.call.switches w'.1)) :
    WroteWord x.call.wordAddr (controlWord (x.call.switches w'.1)) x.trace := by
  rcases exec_sensorCall havail hstep with ⟨hrefuses, -, -⟩ | ⟨-, -, t₁, t₂, s₁, htrace, -, hrest⟩
  · exact absurd haccepts hrefuses
  rw [htrace] at hgood ⊢
  have hgood₂ : AllOk t₂ := (allOk_append t₁ t₂ |>.mp hgood).2
  have hok : x.retval = Status.ok :=
    (SensorCall.reconfigure_ok_iff hrest).mpr fun o ho _ => hgood₂ o ho
  have hcopy : x.call.copy w'.1 = controlWord (x.call.switches w'.1) := by
    have hforce := SensorCall.inForce_reconfigure hok hrest
    cases hcall : x.call with
    | enable sensor state =>
      rw [hcall] at hforce htable
      exact hforce htable
    | enableInt sensor state =>
      rw [hcall] at hforce htable
      exact hforce htable
  rw [← hcopy]
  exact (wroteWord_reconfigure hgood₂ hrest).mono (List.suffix_append t₁ t₂).isInfix

/-- The run lemma: what is recorded as before has no effect later. -/
theorem noDelayedEffect_of_recorded {pdev : Device} (havail : pdev.dmpFirmwareAvailable = true)
    (hrecorded : w'.1.recorded = pdev.recorded) : NoDelayedEffect env call pdev w' := by
  refine ⟨hrecorded, fun tr w'' hrun hothers x hx => ?_⟩
  -- the invariant: the DMP is there, and this sensor is as it was before the request
  have hinv := @Run.invariant _ _ _ (fun w : Device × σ => w.1.dmpFirmwareAvailable = true ∧
      (call.androidSensor ∈ w.1.enabled ↔ call.androidSensor ∈ pdev.enabled) ∧
      (call.androidSensor ∈ w.1.enabledIntr ↔ call.androidSensor ∈ pdev.enabledIntr))
    _ _ _ hrun ?_ ?_
  · have hpost := (hinv.2 x hx).2
    refine ⟨hpost.2.1, hpost.2.2, fun hok => ?_⟩
    exact inForce_sensorStep (hrun.step_mem x hx) (hinv.2 x hx).1.1 hok
  · rw [avail_of_recorded hrecorded, enabled_of_recorded hrecorded,
      enabledIntr_of_recorded hrecorded]
    exact ⟨havail, Iff.rfl, Iff.rfl⟩
  · intro y hy hpre hstep
    obtain ⟨havail', hkept⟩ := others_sensorStep hstep hpre.1
    obtain ⟨henabled, hintr⟩ := hkept call.androidSensor (hothers y hy)
    exact ⟨havail', henabled.trans hpre.2.1, hintr.trans hpre.2.2⟩

/-- A request that fails has no effect later, exactly unless the function accepts the sensor, the
request would change what is recorded, and an access failed whose failure is reported. -/
theorem failed_request_no_effect_iff (hstep : sensorStep env w x w')
    (havail : w.1.dmpFirmwareAvailable = true) :
    (x.retval ≠ Status.ok → NoDelayedEffect env x.call w.1 w') ↔
      (x.call.Accepts x.trace → x.call.AsRequested w.1 ∨ x.call.BusGood x.trace) := by
  rcases exec_sensorCall havail hstep with
    ⟨hrefuses, -, hpdev⟩ | ⟨haccepts, hlt, t₁, t₂, s₁, htrace, hsilent, hrest⟩
  · -- refused, and nothing is recorded
    apply iff_of_true
    · exact fun _ => noDelayedEffect_of_recorded havail (by rw [hpdev])
    · exact fun haccepts => absurd haccepts hrefuses
  · have hrecorded : w'.1.recorded = (x.call.record w.1).recorded :=
      (x.call.leaves_reconfigure (x.call.record w.1)).exec hrest
    have hok : x.retval = Status.ok ↔ x.call.BusGood x.trace := by
      rw [htrace, SensorCall.busGood_append hsilent]
      exact SensorCall.reconfigure_ok_iff hrest
    rw [← hok, imp_iff_right haccepts, ← SensorCall.recorded_record_iff hlt, ← hrecorded]
    constructor
    · intro hkept
      by_cases hret : x.retval = Status.ok
      · exact Or.inr hret
      · exact Or.inl (hkept hret).1
    · rintro (hsame | hret) hfailed
      · exact noDelayedEffect_of_recorded havail hsame
      · exact absurd hret hfailed

end

/-- The gyroscope was switched on, and is switched on again while nothing reaches the DMP. -/
def gyroAgain : Step (Device × Unit) (SensorCalled Unit) :=
  calledOn noMemStart (.enable 1 1) (dmpDevice.switchSensor 4 1, ())

theorem failed_request_no_effect_iff_gyro :
    gyroAgain.label.retval ≠ Status.ok ∧
      NoDelayedEffect noMemStart.env gyroAgain.label.call gyroAgain.pre.1 gyroAgain.post := by
  have hfailed : gyroAgain.label.retval ≠ Status.ok := by decide
  have hrequested : (SensorCall.enable 1 1).AsRequested (dmpDevice.switchSensor 4 1) := by
    unfold SensorCall.AsRequested
    decide
  have hstep := sensorStep_calledOn noMemStart (.enable 1 1) (dmpDevice.switchSensor 4 1, ())
  have hiff := failed_request_no_effect_iff hstep rfl
  exact ⟨hfailed, hiff.mpr (fun _ => Or.inl hrequested) hfailed⟩

/-- The accelerometer cannot be switched on, and stays recorded as enabled. -/
theorem failed_request_stays_recorded :
    ¬ ∀ (σ : Type) (env : Env σ BusEvent BusEvent.Resp) (w w' : Device × σ) (x : SensorCalled σ),
      sensorStep env w x w' → w.1.dmpFirmwareAvailable = true → x.retval ≠ Status.ok →
        NoDelayedEffect env x.call w.1 w' := by
  intro hall
  have heffect := hall Unit noMemStart.env (dmpDevice, ()) _ _
    (sensorStep_calledOn noMemStart (.enable 0 1) (dmpDevice, ())) rfl (by decide)
  have hrecorded := heffect.1
  revert hrecorded
  decide

end SimuSound.Imu
