import SimuSound.Imu.DmpSetup
import SimuSound.Imu.FirmwareStatus
import SimuSound.Imu.RegisterFile
import SimuSound.Imu.RegisterSteps

/-!
# DmpVerdict — what `initializeDMP` returns while no access fails

All of its calls but two then return `Ok` whatever the device answers.  One reads the interrupt
enables back, the other the firmware, and these answers decide.
-/

namespace SimuSound.Imu

open Reasoning

/-! ## What has been read -/

/-- The bytes that an access has read from a register. -/
def BusEvent.bytesAt (reg : Byte) : (e : BusEvent) → e.Resp → List Byte
  | .read r _, answer => if r = reg then List.ofFn answer.val else []
  | .write _ _, _ => []
  | .uninit _, _ => []
  | .spiOpen _ _, _ => []

/-- All bytes read from a register, one access after another. -/
def bytesRead {σ : Type} (reg : Byte) (tr : BusTrace σ) : List Byte :=
  tr.flatMap fun o => o.event.bytesAt reg o.resp

/-- The bytes read from the two registers so far. -/
structure ReadBack where
  enables : List Byte
  memory : List Byte

/-- What was read last of `INT_ENABLE_1` has the interrupt for raw data disabled, and what was read
of the DMP's memory is the image, as far as it was read. -/
structure ReadBack.Fine (image : List Byte) (m : ReadBack) : Prop where
  enables : ∀ b ∈ m.enables.getLast?, flag IntEnable1.rawData0RdyEn b = false
  memory : m.memory <+: image

/-- All bytes that an execution has read from the two. -/
def readBack {σ : Type} (tr : BusTrace σ) : ReadBack :=
  ⟨bytesRead agb0RegIntEnable1 tr, bytesRead agb0RegMemRW tr⟩

def ReadBack.record (m : ReadBack) (e : BusEvent) (r : e.Resp) : ReadBack where
  enables := m.enables ++ e.bytesAt agb0RegIntEnable1 r
  memory := m.memory ++ e.bytesAt agb0RegMemRW r

theorem recordOf_readBack {σ : Type} (m : ReadBack) (tr : BusTrace σ) :
    Prog.recordOf ReadBack.record m tr = ⟨m.enables ++ bytesRead agb0RegIntEnable1 tr,
      m.memory ++ bytesRead agb0RegMemRW tr⟩ := by
  induction tr generalizing m with
  | nil =>
    show m = ⟨m.enables ++ [], m.memory ++ []⟩
    rw [List.append_nil, List.append_nil]
  | cons o tr ih =>
    have hrest := ih (m.record o.event o.resp)
    rw [ReadBack.record, List.append_assoc, List.append_assoc] at hrest
    exact hrest

/-- Any answers, as far as they are good, with what has been read of the two registers. -/
abbrev Finds {τ α : Type} (P : τ → ReadBack → Prop) (p : StateT τ Io α)
    (Q : α → τ → ReadBack → Prop) : Prop :=
  Prog.Triple (Prog.recording ReadBack.record) Good P p Q

/-- The access reads neither. -/
def Unread (e : BusEvent) : Prop :=
  ∀ r : e.Resp, e.bytesAt agb0RegIntEnable1 r = [] ∧ e.bytesAt agb0RegMemRW r = []

def unread (reg : Byte) : Prop := reg ≠ agb0RegIntEnable1 ∧ reg ≠ agb0RegMemRW

instance (reg : Byte) : Decidable (unread reg) := inferInstanceAs (Decidable (_ ∧ _))

theorem unread_write (reg : Byte) (data : List Byte) : Unread (.write reg data) :=
  fun _ => ⟨rfl, rfl⟩

theorem unread_of_among {e : BusEvent} (he : Among unread e) : Unread e := by
  intro r
  cases e with
  | read reg len =>
    obtain ⟨hne, hne'⟩ := he reg rfl
    exact ⟨if_neg hne, if_neg hne'⟩
  | _ => exact ⟨rfl, rfl⟩

theorem record_unread {m m' : ReadBack} {e : BusEvent} {r : e.Resp} (he : Unread e)
    (h : Prog.recording ReadBack.record m e r m') : m' = m := by
  obtain ⟨henables, hmemory⟩ := he r
  unfold Prog.recording ReadBack.record at h
  rw [h, henables, hmemory, List.append_nil, List.append_nil]

section
variable {τ α : Type} {P : τ → ReadBack → Prop}

/-- Code that reads neither register leaves the record alone. -/
theorem finds_unread {p : Io α} {succ : α → Prop} (huses : p.Uses Unread)
    (hsucceeds : p.Succeeds Good succ) : Finds P (liftM p) fun a t m => succ a ∧ P t m := by
  apply Prog.triple_lift
  intro t m tr a m' hP hexec hok
  refine ⟨hsucceeds.exec hexec hok, ?_⟩
  rw [(Prog.Exec.steady (fun _ _ _ _ he h => record_unread he h) huses hexec).1]
  exact hP

theorem finds_register {p : Io Status} (hp : OnRegisters unread p) :
    Finds P (liftM p) fun retval t m => retval = Status.ok ∧ P t m :=
  finds_unread (hp.uses.mono fun _ => unread_of_among) hp.succeeds

end

/-! ## The firmware -/

section
variable {m₀ : ReadBack} {memaddr : BitVec 16}

/-- The record before and after code that reads neither register. -/
abbrev Still {τ : Type} (m₀ : ReadBack) : τ → ReadBack → Prop := fun _ m => m = m₀

/-- The record after more of the DMP's memory has been read. -/
def ReadBack.andMemory (m : ReadBack) (got : List Byte) : ReadBack := ⟨m.enables, m.memory ++ got⟩

theorem finds_write {τ : Type} {P : τ → ReadBack → Prop} (reg : Byte) (data : List Byte) :
    Finds P (liftM (executeW reg data)) fun retval t m => retval = Status.ok ∧ P t m :=
  finds_unread ⟨unread_write reg data, fun _ => trivial⟩ (succeeds_executeW reg data)

/-- The same for code with the device structure. -/
theorem finds_drv {p : Drv Status} (huses : Prog.UsesFrom Unread p) (hsucceeds : DrvSucceeds p) :
    Finds (Still m₀) p fun retval _ m => retval = Status.ok ∧ m = m₀ := by
  intro pdev m tr retval pdev' m' hP hexec hok
  refine ⟨(hsucceeds pdev).exec hexec hok, ?_⟩
  rw [(Prog.Exec.steady (fun _ _ _ _ he h => record_unread he h) (huses pdev) hexec).1]
  exact hP

theorem finds_selectMemsBank (reg : BitVec 16) :
    Finds (Still m₀) (selectMemsBank reg) fun retval _ m => retval = Status.ok ∧ m = m₀ :=
  finds_drv (uses_selectMemsBank (fun _ => unread_write _ _) reg) (drvSucceeds_selectMemsBank reg)

theorem finds_writeMems (reg : BitVec 16) (data : List Byte) :
    Finds (Still m₀) (writeMems reg (some data)) fun retval _ m => retval = Status.ok ∧ m = m₀ :=
  finds_drv (uses_writeMems (fun _ => unread_write _ _) (fun _ => unread_write _ _)
    (fun _ => unread_write _ _) reg _) (drvSucceeds_writeMems reg data)

theorem finds_firmwareWriteLoop (fuel : Nat) (memaddr : BitVec 16) (data : List Byte) :
    Finds (Still m₀) (firmwareWriteLoop fuel memaddr data) fun retval _ m =>
      retval = Status.ok ∧ m = m₀ := by
  induction fuel generalizing memaddr data with
  | zero => exact Prog.triple_pure fun _ _ h => ⟨rfl, h⟩
  | succ fuel ih =>
    cases data with
    | nil => exact Prog.triple_pure fun _ _ h => ⟨rfl, h⟩
    | cons b data => exact Prog.Triple.guard (finds_writeMems _ _) fun _ _ => ih _ _

/-- A verification read adds to what has been read. -/
theorem finds_readChunk (memaddr : BitVec 16) (n : Nat) :
    Finds (Still m₀) (readChunk memaddr n) fun r _ m =>
      (r.retval = Status.ok ∧ r.val.length = n) ∧ m = m₀.andMemory r.val := by
  refine Prog.Triple.guard (finds_selectMemsBank memaddr) fun _ _ => ?_
  refine Prog.Triple.guard (finds_write _ _) fun _ _ => ?_
  let Q : Read (Fin n → Byte) → Device → ReadBack → Prop := fun r _ m =>
    r.retval = Status.ok ∧ m = m₀.andMemory (List.ofFn r.val)
  refine Prog.Triple.bind (M := Q) (Prog.triple_lift ?_) fun r => ?_
  · rintro pdev m tr r m' rfl hexec hok
    obtain ⟨hrec, rfl⟩ := (Prog.exec_perform _ _ _ _ _ _).mp hexec
    refine ⟨((allOk_cons _ _).mp hok).1, ?_⟩
    have hm' : m' = m.record (.read agb0RegMemRW n) r := hrec
    rw [hm']
    exact congrArg (ReadBack.mk · _) (List.append_nil _)
  · exact Prog.triple_pure fun _ _ h => ⟨⟨h.1, List.length_ofFn⟩, h.2⟩

/-- The verification ends well exactly if what it has read begins the image. -/
theorem finds_firmwareVerifyLoop {fuel : Nat} {data dataCmp : List Byte} {flag : Bool}
    (hfuel : data.length ≤ fuel) (hbuffer : dataCmp.length = 16) :
    Finds (Still m₀) (firmwareVerifyLoop fuel memaddr data dataCmp flag) fun r _ m =>
      ∃ got, m = m₀.andMemory got ∧ (r.retval = Status.ok ↔ got <+: data) := by
  have hend (m₀ m : ReadBack) (h : m = m₀) : ∃ got, m = m₀.andMemory got ∧
      (Status.ok = Status.ok ↔ got <+: ([] : List Byte)) :=
    ⟨[], by rw [h, ReadBack.andMemory, List.append_nil], iff_of_true rfl List.nil_prefix⟩
  induction fuel generalizing memaddr data dataCmp flag m₀ with
  | zero =>
    obtain rfl : data = [] := List.length_eq_zero_iff.mp (Nat.le_zero.mp hfuel)
    exact Prog.triple_pure fun _ m h => hend m₀ m h
  | succ fuel ih =>
    cases data with
    | nil => exact Prog.triple_pure fun _ m h => hend m₀ m h
    | cons b data =>
      have hleft := length_drop_chunk memaddr hfuel
      have hle : chunkSize 16 (b :: data).length memaddr ≤ 16 := chunkSize_le.2
      rw [firmwareVerifyLoop_turn fuel memaddr b data flag hbuffer]
      generalize chunkSize 16 (b :: data).length memaddr = n at hleft hle
      have hdest : (dataCmp.take n).length = n := List.length_take_of_le (hle.trans_eq hbuffer.symm)
      refine (finds_readChunk memaddr n).bind fun r => ?_
      intro pdev m tr r' pdev' m' hP hexec hok
      obtain ⟨⟨hret, hlength⟩, hm⟩ := hP
      obtain ⟨htake, hlength'⟩ := buffer_after hdest hlength
      have hout : r.outcome.getD (dataCmp.take n) = r.val := by
        rw [Read.outcome, if_pos hret, Option.getD_some]
      rw [hout] at htake hlength'
      simp only [hout, htake] at hexec
      by_cases heq : r.val = (b :: data).take n
      · rw [if_neg (not_not_intro heq)] at hexec
        obtain ⟨got, hgot, hret'⟩ := @ih (m₀.andMemory r.val) _ _ _ _ hleft
          (hlength'.trans hbuffer) pdev m tr r' pdev' m' hm hexec hok
        refine ⟨r.val ++ got, ?_, ?_⟩
        · rw [hgot, ReadBack.andMemory, ReadBack.andMemory, List.append_assoc]
          rfl
        · have hsplit : b :: data = r.val ++ (b :: data).drop n := by
            rw [heq, List.take_append_drop]
          rw [hret', hsplit, List.prefix_append_right_inj, ← hsplit]
      · rw [if_pos heq] at hexec
        obtain ⟨-, rfl, -, rfl⟩ := Prog.exec_pureM.mp hexec
        have hbad : ¬ Status.dmpVerifyFail = Status.ok := by decide
        refine ⟨r.val, hm, iff_of_false hbad fun hprefix => heq ?_⟩
        rw [List.prefix_iff_eq_take.mp hprefix, hlength]

/-- The DMP is there, and the record is this one. -/
def Ready (m₀ : ReadBack) (pdev : Device) (m : ReadBack) : Prop :=
  pdev.dmpFirmwareAvailable = true ∧ m = m₀

theorem finds_loadSteps {image dataCmp : List Byte} (hbuffer : dataCmp.length = 16) :
    Finds (Still m₀) (loadSteps image memaddr dataCmp) fun retval _ m =>
      ∃ got, m = m₀.andMemory got ∧ (retval = Status.ok ↔ got <+: image) := by
  have hpower {P : Device → ReadBack → Prop} (assign : Byte → Byte) :
      Finds P (liftM (updateReg 0 agb0RegPwrMgmt1 assign)) fun retval pdev m =>
        retval = Status.ok ∧ P pdev m :=
    finds_register (.updateReg (by decide) 0 assign)
  refine Prog.Triple.guard (hpower _) fun _ _ => Prog.Triple.guard (hpower _) fun _ _ => ?_
  refine (finds_firmwareWriteLoop _ _ _).guard fun _ _ => ?_
  refine (finds_firmwareVerifyLoop (Nat.le_refl _) hbuffer).bind fun r => ?_
  refine Prog.Triple.ite (fun _ => Prog.triple_pure fun _ _ h => h) fun hok => ?_
  refine Prog.Triple.guard (hpower _) fun retval hret => ?_
  let Q : Device → ReadBack → Prop := fun _ m => ∃ got, m = m₀.andMemory got ∧ got <+: image
  refine Prog.Triple.bind (M := fun _ => Q) (Prog.triple_modify ?_) fun _ => ?_
  · rintro pdev m ⟨got, hm, hiff⟩
    exact ⟨got, hm, hiff.mp (Decidable.not_not.mp hok)⟩
  exact Prog.triple_pure fun _ _ ⟨got, hm, hgot⟩ => ⟨got, hm, iff_of_true hret hgot⟩

/-- A firmware that is loaded already is not read back. -/
theorem finds_invFirmwareLoad (image : List Byte) (loadAddr : BitVec 16) :
    Finds (Ready m₀) (invFirmwareLoad image loadAddr) fun retval _ m =>
      ∃ got, m = m₀.andMemory got ∧ (retval = Status.ok ↔ got <+: image) := by
  have hgarbage : (uninit 16).Uses Unread := ⟨fun _ => ⟨rfl, rfl⟩, fun _ => trivial⟩
  have hsucc : (uninit 16).Succeeds Good fun _ => True := fun _ _ => trivial
  refine (finds_unread hgarbage hsucc).bind fun garbage => ?_
  refine Prog.triple_unless (fun _ _ h => not_eq_false_of_avail h.2.1) fun pdev₀ => ?_
  refine Prog.Triple.ite (fun _ => ?_) fun _ => ?_
  · apply Prog.triple_pure
    rintro pdev m ⟨-, -, -, rfl⟩
    exact ⟨[], by rw [ReadBack.andMemory, List.append_nil], iff_of_true rfl List.nil_prefix⟩
  · exact (finds_loadSteps List.length_ofFn).pre fun pdev m h => h.2.2.2

theorem finds_setDmpStartAddress (address : BitVec 16) :
    Finds (Ready m₀) (setDmpStartAddress address) fun retval _ m =>
      retval = Status.ok ∧ m = m₀ := by
  refine Prog.triple_unless (fun _ _ h => not_eq_false_of_avail h.1) fun pdev₀ => ?_
  refine Prog.Triple.guard (finds_register onRegisters_ok) fun _ _ => ?_
  exact (finds_write _ _).pre fun pdev m h => h.2.2

theorem finds_setGyroSf (div : Byte) (gyroLevel : Int) :
    Finds (Ready m₀) (setGyroSf div gyroLevel) fun retval _ m =>
      retval = Status.ok ∧ m = m₀ := by
  have hgarbage : uninitByte.Uses Unread := ⟨fun _ => ⟨rfl, rfl⟩, fun _ => trivial⟩
  have hsucc : uninitByte.Succeeds Good fun _ => True := fun _ _ => trivial
  have hbank : (setBank 1).Uses Unread := trivial
  have hbank' : (setBank 1).Succeeds Good fun _ => True := trivial
  have hread (dest : Byte) : (readByte agb1RegTimebaseCorrectionPll dest).Uses Unread :=
    ⟨unread_of_among (among_read (by decide) 1), fun _ => trivial⟩
  refine Prog.triple_unless (fun _ _ h => not_eq_false_of_avail h.1) fun pdev₀ => ?_
  refine (finds_unread hgarbage hsucc).bind fun garbage => ?_
  refine (finds_unread hbank hbank').bind fun _ => ?_
  have hpll : Finds (Still m₀) (liftM (readByte agb1RegTimebaseCorrectionPll garbage))
      fun r (_ : Device) m => r.retval = Status.ok ∧ m = m₀ :=
    finds_unread (hread garbage) (succeeds_readByte _ _)
  refine Prog.Triple.pre (hpll.guard fun r _ => ?_) fun pdev m h => h.2.2.2.2
  let Q : PUnit → Device → ReadBack → Prop := fun _ => Still m₀
  refine Prog.Triple.bind (M := Q) (Prog.triple_modify fun pdev m h => h) fun _ => ?_
  refine Prog.Triple.bind (M := Q) (Prog.triple_modify fun pdev m h => h) fun _ => ?_
  exact finds_writeMems _ _

end

/-! ## The interrupt enables -/

section
variable {τ : Type} {m₀ : ReadBack} {dest : IntEnables} {en : Fin 4 → Byte}

/-- The record after `INT_ENABLE_1` has been read. -/
def ReadBack.andEnable (m : ReadBack) (b : Byte) : ReadBack := ⟨m.enables ++ [b], m.memory⟩

theorem finds_readEnable1 (dest : Byte) :
    Finds (Still m₀) (liftM (readByte agb0RegIntEnable1 dest)) fun r (_ : τ) m =>
      r.retval = Status.ok ∧ m = m₀.andEnable r.val := by
  apply Prog.triple_lift
  rintro t m tr r m' rfl hexec hok
  have hret : r.retval = Status.ok := (succeeds_readByte _ _).exec hexec hok
  obtain ⟨answer, hrec, -, hval, -⟩ := exec_readByte_ok hexec hret
  have hm' : m' = m.record (.read agb0RegIntEnable1 1) answer := hrec
  refine ⟨hret, ?_⟩
  rw [hm', hval]
  exact congrArg (ReadBack.mk _ ·) (List.append_nil _)

/-- The structure that has been read back, as far as it is tested. -/
def Confirms (m₀ : ReadBack) (w : IntEnables) (m : ReadBack) : Prop :=
  ∃ b, m = m₀.andEnable b ∧ w.rawData0RdyEn = flag IntEnable1.rawData0RdyEn b

theorem finds_intEnableRead :
    Finds (Still m₀) (liftM (intEnableRead dest en)) fun r (_ : τ) m =>
      r.retval = Status.ok ∧ Confirms m₀ r.val m := by
  have hread {P : τ → ReadBack → Prop} {reg : Byte} (hreg : unread reg) (b : Byte) :
      Finds P (liftM (readByte reg b)) fun r t m => r.retval = Status.ok ∧ P t m :=
    finds_unread ⟨unread_of_among (among_read hreg 1), fun _ => trivial⟩ (succeeds_readByte _ _)
  unfold intEnableRead
  refine Prog.Triple.liftGuard (hread (by decide) _) fun r0 _ => ?_
  refine Prog.Triple.liftGuard (finds_readEnable1 _) fun r1 _ => ?_
  refine Prog.Triple.liftGuard (hread (by decide) _) fun r2 _ => ?_
  refine Prog.Triple.liftGuard (hread (by decide) _) fun r3 hr3 => ?_
  exact Prog.triple_pure fun t m hm => ⟨hr3, r1.val, hm, rfl⟩

theorem finds_intEnable (write : Option IntEnables) :
    Finds (Still m₀) (liftM (intEnable write (some dest))) fun r (_ : τ) m =>
      r.retval = Status.ok ∧ Confirms m₀ (r.val.getD dest) m := by
  have hgarbage : (uninit 4).Uses Unread := ⟨fun _ => ⟨rfl, rfl⟩, fun _ => trivial⟩
  have hsucc : (uninit 4).Succeeds Good fun _ => True := fun _ _ => trivial
  have hrest (en : Fin 4 → Byte) : Finds (Still m₀) (liftM (intEnableRead dest en >>= fun r =>
      (pure ⟨r.retval, some r.val⟩ : Io (Read (Option IntEnables))))) fun r (_ : τ) m =>
        r.retval = Status.ok ∧ Confirms m₀ (r.val.getD dest) m := by
    rw [liftM_bind]
    exact finds_intEnableRead.bind fun r => Prog.triple_pure fun _ _ h => h
  unfold intEnable
  rw [liftM_bind]
  refine (finds_unread hgarbage hsucc).bind fun en => ?_
  refine Prog.Triple.pre ?_ fun _ _ h => h.2
  cases write with
  | none => exact hrest en
  | some w =>
    have hwrite : (intEnableWrite w en).Uses Unread := by
      have hbyte (reg b : Byte) : (writeByte reg b).Uses Unread :=
        ⟨unread_write reg [b], fun _ => trivial⟩
      refine uses_guard (hbyte _ _) fun _ => uses_guard (hbyte _ _) fun _ => ?_
      exact uses_guard (hbyte _ _) fun _ => hbyte _ _
    exact Prog.Triple.liftGuard (finds_unread hwrite succeeds_intEnableWrite) fun _ _ => hrest en

end

/-! ## The calls of `initializeDMP` -/

namespace Icm20948

section
variable {m₀ : ReadBack}

/-- The method finds the DMP. -/
abbrev At (m₀ : ReadBack) : Icm20948 → ReadBack → Prop := fun icm => Ready m₀ icm.device

/-- A call that reads neither register, and leaves and returns `Ok`. -/
def Quiet (step : Method Status) : Prop :=
  ∀ m₀, Finds (At m₀) step fun result icm m =>
    (result = Status.ok ∧ icm.status = Status.ok) ∧ At m₀ icm m

theorem quiet_unread {p : Io Status} (huses : p.Uses Unread) (hsucceeds : SucceedsOk p) :
    Quiet (liftM p >>= report) := by
  intro m₀
  have hlift : Finds (At m₀) (liftM p) fun status icm m => status = Status.ok ∧ At m₀ icm m :=
    finds_unread huses hsucceeds
  refine hlift.bind fun status => ?_
  let P : Icm20948 → ReadBack → Prop := fun icm m => status = Status.ok ∧ At m₀ icm m
  have hreport : Finds P (report status) fun result icm m =>
      result = status ∧ icm.status = status ∧ P icm m := triple_report fun _ _ h => h
  refine hreport.post ?_
  rintro result icm m ⟨rfl, hstatus, hok, h⟩
  exact ⟨⟨hok, hstatus.trans hok⟩, h⟩

theorem quiet_register {p : Io Status} (hp : OnRegisters unread p) :
    Quiet (liftM p >>= report) :=
  quiet_unread (hp.uses.mono fun _ => unread_of_among) hp.succeeds

theorem finds_ifDmp {step : Method Status} {Q : Status → Icm20948 → ReadBack → Prop}
    (h : Finds (At m₀) step Q) : Finds (At m₀) (ifDmp step) Q :=
  triple_ifDmp (fun _ _ hP => hP.1) h

/-- A driver function, with what is known of its result and of the record. -/
theorem finds_onDevice {p : Drv Status} {Q : Status → ReadBack → Prop}
    (h : Finds (Ready m₀) p fun retval _ m => Q retval m) (hleaves : LeavesDmp p) :
    Finds (At m₀) (onDevice p >>= report) fun result icm m =>
      icm.status = result ∧ icm.device.dmpFirmwareAvailable = true ∧ Q result m := by
  have hframe : Finds (Ready m₀) p fun retval pdev m =>
      Q retval m ∧ pdev.dmpFirmwareAvailable = true :=
    (h.frame hleaves).pre fun pdev m hready => ⟨hready, hready.1⟩
  refine (triple_onDevice hframe).bind fun status => ?_
  let P : Icm20948 → ReadBack → Prop := fun icm m =>
    Q status m ∧ icm.device.dmpFirmwareAvailable = true
  have hreport : Finds P (report status) fun result icm m =>
      result = status ∧ icm.status = status ∧ P icm m := triple_report fun _ _ h => h
  refine hreport.post ?_
  rintro result icm m ⟨rfl, hstatus, hQ, havail⟩
  exact ⟨hstatus, havail, hQ⟩

theorem quiet_onDevice {p : Drv Status}
    (h : ∀ m₀, Finds (Ready m₀) p fun retval _ m => retval = Status.ok ∧ m = m₀)
    (hleaves : LeavesDmp p) : Quiet (ifDmp (onDevice p >>= report)) := by
  intro m₀
  let Q : Status → ReadBack → Prop := fun retval m => retval = Status.ok ∧ m = m₀
  have hcall : Finds (Ready m₀) p fun retval _ m => Q retval m := h m₀
  refine (finds_ifDmp (finds_onDevice hcall hleaves)).post ?_
  rintro result icm m ⟨hstatus, havail, hok, hm⟩
  exact ⟨⟨hok, hstatus.trans hok⟩, havail, hm⟩

theorem quiet_writeDmpMems (reg : BitVec 16) (data : List Byte) :
    Quiet (writeDmpMems reg (some data)) :=
  quiet_onDevice (fun _ => (finds_writeMems reg data).pre fun _ _ h => h.2)
    (leaves_writeMems (fun _ _ => rfl) _ _)

theorem quiet_setDmpStartAddress (address : BitVec 16) : Quiet (setDmpStartAddress address) :=
  quiet_onDevice (fun _ => finds_setDmpStartAddress address) (leaves_setDmpStartAddress address)

theorem quiet_setGyroSf (div : Byte) (gyroLevel : Int) : Quiet (setGyroSf div gyroLevel) :=
  quiet_onDevice (fun _ => finds_setGyroSf div gyroLevel)
    (leaves_setGyroSf (fun _ _ => rfl) (fun _ _ => rfl) (fun _ _ => rfl) div gyroLevel)

/-- What is read back decides. -/
theorem finds_loadDmpFirmware {build : Build} (huse : build.useDmp = true) :
    Finds (At m₀) (loadDmpFirmware build) fun result icm m =>
      icm.device.dmpFirmwareAvailable = true ∧
        ∃ got, m = m₀.andMemory got ∧ (result = Status.ok ↔ got <+: build.dmp3Image) := by
  let Q : Status → ReadBack → Prop := fun retval m =>
    ∃ got, m = m₀.andMemory got ∧ (retval = Status.ok ↔ got <+: build.dmp3Image)
  have hload : Finds (Ready m₀) (firmwareLoad build) fun retval _ m => Q retval m := by
    unfold firmwareLoad
    rw [if_pos huse]
    exact finds_invFirmwareLoad _ _
  have hleaves : LeavesDmp (firmwareLoad build) :=
    .ite (leaves_invFirmwareLoad (fun _ _ => rfl) (fun _ _ => rfl) _ _) (Prog.leaves_pure _)
  refine (finds_ifDmp (finds_onDevice hload hleaves)).post ?_
  exact fun result icm m h => h.2

/-- The enables are read, written and read back. -/
theorem finds_intEnableRawDataReady :
    Finds (At m₀) (intEnableRawDataReady false) fun result icm m =>
      icm.device.dmpFirmwareAvailable = true ∧
        ∃ b b', m = (m₀.andEnable b).andEnable b' ∧
          (result = Status.ok ↔ flag IntEnable1.rawData0RdyEn b' = false) := by
  have hgarbage : (uninit 4).Uses Unread := ⟨fun _ => ⟨rfl, rfl⟩, fun _ => trivial⟩
  have hsucc : (uninit 4).Succeeds Good fun _ => True := fun _ _ => trivial
  have hcall (m₀ : ReadBack) (write : Option IntEnables) (dest : IntEnables) :
      Finds (At m₀) (liftM (intEnable write (some dest))) fun r icm m =>
        (r.retval = Status.ok ∧ Confirms m₀ (r.val.getD dest) m) ∧ icm.dmpAvailable = true :=
    ((finds_intEnable write).frame (Prog.leaves_lift _)).pre fun icm m h => ⟨h.2, h.1⟩
  -- a call that has succeeded is reported as such
  have hreport {r : Read (Option IntEnables)} {P : ReadBack → Prop} :
      Finds (fun icm m => (r.retval = Status.ok ∧ P m) ∧ icm.dmpAvailable = true)
        (report r.retval) fun status icm m => status = Status.ok ∧
          P m ∧ icm.dmpAvailable = true :=
    (triple_report fun _ _ h => h).post fun status icm m h =>
      ⟨h.1.trans h.2.2.1.1, h.2.2.1.2, h.2.2.2⟩
  refine (finds_unread hgarbage hsucc).bind fun garbage => ?_
  refine Prog.Triple.pre ?_ fun icm m h => h.2
  refine (hcall m₀ none _).bind fun r => hreport.guard fun _ _ => ?_
  have hread (dest : IntEnables) (icm : Icm20948) (m : ReadBack)
      (h : Confirms m₀ dest m ∧ icm.dmpAvailable = true) : ∃ b, At (m₀.andEnable b) icm m := by
    obtain ⟨⟨b, hm, -⟩, havail⟩ := h
    exact ⟨b, havail, hm⟩
  refine Prog.Triple.pre (Prog.triple_exists fun b => ?_) (hread _)
  refine (hcall (m₀.andEnable b) (some _) _).bind fun w => hreport.guard fun status hok => ?_
  refine Prog.Triple.ite (fun hconfirmed => ?_) fun hnot => ?_
  · apply Prog.triple_pure
    rintro icm m ⟨⟨b', hm, hval⟩, havail⟩
    have hfalse := of_decide_eq_true hconfirmed
    rw [hval] at hfalse
    exact ⟨havail, b, b', hm, iff_of_true hok hfalse⟩
  · refine (triple_report fun _ _ h => h).post ?_
    rintro result icm m ⟨rfl, -, ⟨b', hm, hval⟩, havail⟩
    have htrue := of_decide_eq_false (Bool.not_eq_true _ |>.mp hnot)
    rw [hval] at htrue
    have hbad : ¬ Status.err = Status.ok := by decide
    exact ⟨havail, b, b', hm, iff_of_false hbad htrue⟩

end

/-! ## The whole -/

/-- What the worst result so far says of what has been read so far. -/
abbrev Judgement := Status → ReadBack → Prop

/-- The verdict stands, and the DMP is there. -/
def Stands (V : Judgement) (worstResult : Status) (icm : Icm20948) (m : ReadBack) : Prop :=
  icm.dmpAvailable = true ∧ V worstResult m

/-- From the verdict `V` on the worst result so far the steps lead to the verdict `V'`. -/
def Leads (V : Judgement) (steps : List (Method Status)) (V' : Judgement) : Prop :=
  ∀ worstResult, Finds (Stands V worstResult) (worstOf steps worstResult) (Stands V')

section
variable {V V' V'' : Judgement} {step : Method Status} {steps steps' : List (Method Status)}

theorem worse_ok (worstResult : Status) : worse worstResult Status.ok = worstResult := by
  unfold worse
  have hnot : ¬ Status.ok > worstResult := fun h => Nat.not_lt_zero _ h
  rw [if_neg hnot]

theorem leads_nil : Leads V [] V := fun _ => Prog.triple_pure fun _ _ h => h

theorem Leads.cons
    (hstep : ∀ worstResult, Finds (Stands V worstResult) step fun result =>
      Stands V' (worse worstResult result))
    (hsteps : Leads V' steps V'') : Leads V (step :: steps) V'' :=
  fun worstResult => (hstep worstResult).bind fun result => hsteps (worse worstResult result)

theorem Leads.append (hsteps : Leads V steps V') (hsteps' : Leads V' steps' V'') :
    Leads V (steps ++ steps') V'' := by
  intro worstResult
  rw [worstOf_append]
  exact (hsteps worstResult).bind fun worse => hsteps' worse

/-- A quiet call changes neither the worst result nor what has been read. -/
theorem Quiet.stands (h : Quiet step) (worstResult : Status) :
    Finds (Stands V worstResult) step fun result icm m =>
      icm.status = Status.ok ∧ Stands V (worse worstResult result) icm m := by
  intro icm m tr result icm' m' hP hexec hok
  obtain ⟨⟨hret, hstatus⟩, havail, hm⟩ := h m icm m tr result icm' m' ⟨hP.1, rfl⟩ hexec hok
  rw [hret, worse_ok, hm]
  exact ⟨hstatus, havail, hP.2⟩

theorem Leads.quiet (h : Quiet step) (hsteps : Leads V steps V') : Leads V (step :: steps) V' :=
  .cons (fun worstResult => (h.stands worstResult).post fun _ _ _ h => h.2) hsteps

theorem leads_writeAll (writes : List (BitVec 16 × List Byte)) : Leads V (writeAll writes) V := by
  induction writes with
  | nil => exact leads_nil
  | cons w writes ih => exact .quiet (quiet_writeDmpMems w.1 w.2) ih

end

section
variable {build : Build}

/-- Until the enables are read back there is nothing to judge by. -/
def Unjudged : Judgement := fun worstResult m => worstResult = Status.ok ∧ m = ⟨[], []⟩

/-- The enables decide until the firmware is read back. -/
def EnablesDecide : Judgement := fun worstResult m => m.memory = [] ∧
  (worstResult = Status.ok ↔ ∀ b ∈ m.enables.getLast?, flag IntEnable1.rawData0RdyEn b = false)

/-- What has been read decides. -/
def Decided (image : List Byte) : Judgement := fun worstResult m =>
  worstResult = Status.ok ↔ m.Fine image

theorem finds_enables (worstResult : Status) :
    Finds (Stands Unjudged worstResult) (intEnableRawDataReady false) fun result =>
      Stands EnablesDecide (worse worstResult result) := by
  intro icm m tr result icm' m' hP hexec hok
  obtain ⟨havail, rfl, rfl⟩ := hP
  obtain ⟨havail', b, b', rfl, hiff⟩ :=
    finds_intEnableRawDataReady icm _ tr result icm' m' ⟨havail, rfl⟩ hexec hok
  refine ⟨havail', rfl, ?_⟩
  have hlast : ((ReadBack.mk [] []).andEnable b).andEnable b' = ⟨[b, b'], []⟩ := rfl
  rw [worse_eq_ok, hlast, hiff]
  exact ⟨fun h c hc => Option.some.inj hc ▸ h.2, fun h => ⟨rfl, h b' rfl⟩⟩

theorem finds_firmware (huse : build.useDmp = true) (worstResult : Status) :
    Finds (Stands EnablesDecide worstResult) (loadDmpFirmware build) fun result =>
      Stands (Decided build.dmp3Image) (worse worstResult result) := by
  intro icm m tr result icm' m' hP hexec hok
  obtain ⟨havail, hnone, henables⟩ := hP
  obtain ⟨havail', got, rfl, hiff⟩ :=
    finds_loadDmpFirmware huse icm m tr result icm' m' ⟨havail, rfl⟩ hexec hok
  refine ⟨havail', ?_⟩
  rw [Decided, worse_eq_ok, henables, hiff]
  have hgot : (m.andMemory got).memory = got := by
    rw [ReadBack.andMemory, hnone, List.nil_append]
  constructor
  · rintro ⟨hen, hmem⟩
    exact ⟨hen, by rwa [hgot]⟩
  · rintro ⟨hen, hmem⟩
    rw [hgot] at hmem
    exact ⟨hen, hmem⟩

theorem leads_dmpSteps (huse : build.useDmp = true) :
    Leads Unjudged (dmpSteps build) (Decided build.dmp3Image) := by
  have hsensors : Sensors.has (internalAccGyr.setWidth 32) (internalAcc ||| internalGyr) := by decide
  have hgyroSensor : Sensors.has ((2 : Byte).setWidth 32) (internalAcc ||| internalGyr) := by decide
  -- `ACCEL_SMPLRT_DIV_2` has the address of `INT_ENABLE_1`, but it is only written
  have hrate : (Imu.setSampleRate (internalAccGyr.setWidth 32) ⟨19, 19⟩).Uses Unread :=
    uses_setSampleRate (fun _ => unread_write _ _) (fun _ => unread_write _ _)
      (fun _ => unread_write _ _) _ _
  have hwrites (writes : List (BitVec 16 × List Byte)) :
      Leads (Decided build.dmp3Image) (writeAll writes) (Decided build.dmp3Image) :=
    leads_writeAll writes
  have hgyro : Leads (Decided build.dmp3Image) [setGyroSf 19 3] (Decided build.dmp3Image) :=
    .quiet (quiet_setGyroSf 19 3) leads_nil
  refine .append (.append (.append ?_ (hwrites _)) hgyro) (hwrites _)
  -- the registers one after another as `initializeDMP` sets them
  refine .quiet (quiet_register (onRegisters_configurePeripheral rfl (by decide) (by decide)
    (by decide) (by decide) _)) ?_
  refine .quiet (quiet_register (onRegisters_configurePeripheral rfl (by decide) (by decide)
    (by decide) (by decide) _)) ?_
  refine .quiet (quiet_register onRegisters_ok) ?_
  refine .quiet (quiet_register (.write (by decide) _)) ?_
  refine .quiet (quiet_register (.updateReg (by decide) 0 _)) ?_
  refine .quiet (quiet_register onRegisters_ok) ?_
  refine .quiet (quiet_register (.write (by decide) _)) ?_
  refine .quiet (quiet_register (.updateReg (by decide) 0 _)) ?_
  refine .quiet (quiet_register (.updateReg (by decide) 0 _)) ?_
  refine .quiet (fun _ => finds_ifDmp (quiet_register (.updateReg (by decide) 0 _) _)) ?_
  refine .quiet (quiet_register (onRegisters_setFullScale (by decide) (by decide) hsensors _)) ?_
  refine .quiet (quiet_register (onRegisters_enableDlpf (by decide) (by decide) hgyroSensor true)) ?_
  refine .quiet (quiet_register onRegisters_ok) ?_
  refine .quiet (quiet_register (.write (by decide) _)) ?_
  refine .quiet (quiet_register (.write (by decide) _)) ?_
  refine .cons finds_enables ?_
  refine .quiet (quiet_register (onRegisters_resetFifo (by decide))) ?_
  refine .quiet (quiet_unread hrate (succeeds_setSampleRate hsensors _)) ?_
  refine .quiet (quiet_setDmpStartAddress _) ?_
  refine .cons (finds_firmware huse) ?_
  refine .quiet (quiet_setDmpStartAddress _) ?_
  refine .quiet (quiet_register onRegisters_ok) ?_
  refine .quiet (quiet_register (.write (by decide) _)) ?_
  refine .quiet (quiet_register onRegisters_ok) ?_
  exact .quiet (quiet_register (.write (by decide) _)) leads_nil

/-- While no access fails, the calls of `initializeDMP` leave `Ok` in `status` and return `Ok`
exactly if what has been read back is fine. -/
theorem initializeDmp_verdict {σ : Type} {env : Env σ BusEvent BusEvent.Resp}
    {icm icm' : Icm20948} {s s' : σ} {tr : BusTrace σ} {result : Status}
    (huse : build.useDmp = true) (havail : icm.device.dmpFirmwareAvailable = true)
    (hexec : Prog.Exec env ((initializeDmp build).run icm) s tr (result, icm') s')
    (hok : AllOk tr) :
    icm'.status = Status.ok ∧ (result = Status.ok ↔ (readBack tr).Fine build.dmp3Image) := by
  have hlast : Finds (Stands Unjudged Status.ok)
      (worstOf (dmpSteps build ++ [dmpLastStep]) Status.ok) fun result icm m =>
        icm.status = Status.ok ∧ Decided build.dmp3Image result m := by
    rw [worstOf_append]
    refine (leads_dmpSteps huse Status.ok).bind fun worstResult => ?_
    refine ((quiet_writeDmpMems _ _).stands worstResult).bind fun result => ?_
    exact Prog.triple_pure fun icm m h => ⟨h.1, h.2.2⟩
  have hrun : Prog.Exec env ((worstOf (dmpSteps build ++ [dmpLastStep]) Status.ok).run icm) s tr
      (result, icm') s' := by
    unfold initializeDmp at hexec
    rw [if_pos huse] at hexec
    change Prog.Exec env ((ite (icm.device.dmpFirmwareAvailable = true) _ _ : Method Status).run
      icm) s tr (result, icm') s' at hexec
    rwa [if_pos havail] at hexec
  have hstart : Stands Unjudged Status.ok icm ⟨[], []⟩ := ⟨havail, rfl, rfl⟩
  have hend := hlast.recorded hstart hrun hok
  rw [recordOf_readBack] at hend
  exact hend

end

end Icm20948

end SimuSound.Imu
