import SimuSound.Imu.DmpSetup
import SimuSound.Imu.DmpWrites
import SimuSound.Imu.RegisterSteps

/-!
# DmpInitialize — the DMP's memory after `initializeDMP`

The image is written and verified, and then its parameters are written over it: the mounting
matrices, the scaling of the gyro and of the accelerometer, and the compass time buffer.
-/

namespace SimuSound.Imu

open Reasoning

/-! ## The firmware -/

section
variable {f : BitVec 16 → Byte} {memaddr : BitVec 16}

/-- What the memory holds from `memaddr` on. -/
def HoldsAt (f : BitVec 16 → Byte) (memaddr : BitVec 16) (bytes : List Byte) : Prop :=
  ∀ i (hi : i < bytes.length), f (memaddr + BitVec.ofNat 16 i) = bytes[i]

/-- A range within its bank is read as it is. -/
theorem does_readMems {dest : List Byte} (hwithin : memaddr.toNat % 256 + dest.length ≤ 256)
    (hbank : hiByte memaddr ≠ 255) :
    Does (Holding f) (readMems memaddr (some dest)) fun r pdev s =>
      (∃ bytes, r = ⟨Status.ok, some bytes⟩ ∧ bytes.length = dest.length ∧
        HoldsAt f memaddr bytes) ∧ Holding f pdev s := by
  intro pdev s tr r pdev' s' h hexec hok
  obtain ⟨bytes, rfl, hlength, rfl, hsel, hmem, hbytes⟩ :=
    readMems_good (h.bank.remembered hbank) hexec hok
  refine ⟨⟨bytes, rfl, hlength, fun i hi => ?_⟩, h.avail, Or.inr hsel.symm, ?_⟩
  · have hlt := memaddr.isLt
    have hhi : hiByte (memaddr + BitVec.ofNat 16 i) = hiByte memaddr := by
      rw [← BitVec.toNat_inj, toNat_hiByte, toNat_hiByte, BitVec.toNat_add, BitVec.toNat_ofNat]
      omega
    rw [hbytes i hi, ← h.mem]
    unfold DmpMemory.at
    rw [hhi, loByte_add]
  · rw [hmem]
    exact h.mem

theorem hiByte_ne_of_bound (h : memaddr.toNat < 0xff00) : hiByte memaddr ≠ 255 := by
  intro heq
  have hnat := congrArg BitVec.toNat heq
  rw [toNat_hiByte] at hnat
  have hconst : (255 : Byte).toNat = 255 := rfl
  omega

theorem does_firmwareWriteLoop {fuel : Nat} {data : List Byte} (hfuel : data.length ≤ fuel)
    (halign : data = [] ∨ memaddr.toNat % 16 = 0)
    (hbound : memaddr.toNat + data.length ≤ 0xff00) :
    Does (Holding f) (firmwareWriteLoop fuel memaddr data) fun retval pdev s =>
      retval = Status.ok ∧ Holding (overlay memaddr data f) pdev s := by
  induction fuel generalizing memaddr data f with
  | zero =>
    obtain rfl : data = [] := List.length_eq_zero_iff.mp (Nat.le_zero.mp hfuel)
    exact Prog.triple_pure fun pdev s h => ⟨rfl, h⟩
  | succ fuel ih =>
    cases data with
    | nil => exact Prog.triple_pure fun pdev s h => ⟨rfl, h⟩
    | cons b data =>
      have halign : memaddr.toNat % 16 = 0 := halign.resolve_left (List.cons_ne_nil _ _)
      have hchunk := nextChunk halign hbound
      have hleft := length_drop_chunk memaddr hfuel
      rw [firmwareWriteLoop_cons]
      generalize chunkSize 16 (b :: data).length memaddr = n at hchunk hleft
      have hlt : memaddr.toNat < 0xff00 := by
        rw [List.length_cons] at hbound
        omega
      have hwithin := hchunk.within
      rw [← hchunk.length] at hwithin
      refine (does_writeMems hwithin (hiByte_ne_of_bound hlt)).guard fun retval hret => ?_
      -- the chunk and the rest are the whole range
      have hsplit : overlay memaddr (b :: data) f = overlay (memaddr + BitVec.ofNat 16 n)
          ((b :: data).drop n) (overlay memaddr ((b :: data).take n) f) := by
        have hsize : ((b :: data).take n ++ (b :: data).drop n).length ≤ 2 ^ 16 := by
          rw [List.take_append_drop]
          omega
        have happend := overlay_append memaddr ((b :: data).take n) ((b :: data).drop n) f hsize
        rwa [List.take_append_drop, hchunk.length] at happend
      rw [hsplit]
      exact ih hleft hchunk.aligned hchunk.bound

/-- The image agrees with what the memory holds, chunk by chunk. -/
theorem does_firmwareVerifyLoop {fuel : Nat} {data dataCmp : List Byte} {flag : Bool}
    (hfuel : data.length ≤ fuel) (halign : data = [] ∨ memaddr.toNat % 16 = 0)
    (hbound : memaddr.toNat + data.length ≤ 0xff00) (hbuffer : dataCmp.length = 16)
    (hdata : HoldsAt f memaddr data) :
    Does (Holding f) (firmwareVerifyLoop fuel memaddr data dataCmp flag) fun r pdev s =>
      r = ⟨Status.ok, flag⟩ ∧ Holding f pdev s := by
  induction fuel generalizing memaddr data dataCmp with
  | zero => exact Prog.triple_pure fun pdev s h => ⟨rfl, h⟩
  | succ fuel ih =>
    cases data with
    | nil => exact Prog.triple_pure fun pdev s h => ⟨rfl, h⟩
    | cons b data =>
      have halign : memaddr.toNat % 16 = 0 := halign.resolve_left (List.cons_ne_nil _ _)
      have hchunk := nextChunk halign hbound
      have hleft := length_drop_chunk memaddr hfuel
      rw [firmwareVerifyLoop_cons]
      generalize chunkSize 16 (b :: data).length memaddr = n at hchunk hleft
      have hlt : memaddr.toNat < 0xff00 := by
        rw [List.length_cons] at hbound
        omega
      have hdest : (dataCmp.take n).length = n := by
        rw [List.length_take, hbuffer, Nat.min_eq_left hchunk.le]
      have hwithin := hchunk.within
      rw [← hdest] at hwithin
      refine (does_readMems hwithin (hiByte_ne_of_bound hlt)).bind fun r => ?_
      intro pdev s tr r' pdev' s' hP hexec hok
      obtain ⟨⟨bytes, rfl, hlength, hbytes⟩, hhold⟩ := hP
      rw [hdest] at hlength
      -- what was read is the chunk of the image
      have hsame : bytes = (b :: data).take n := by
        apply List.ext_getElem
        · rw [hlength, hchunk.length]
        · intro i hi hi'
          rw [← hbytes i hi, List.getElem_take]
          exact hdata i (Nat.lt_of_lt_of_le hi' (List.length_take_le' n _))
      have htake : (bytes ++ dataCmp.drop n).take n = bytes := List.take_left' hlength
      have hbuffer' : (bytes ++ dataCmp.drop n).length = 16 := by
        rw [List.length_append, List.length_drop, hlength, hbuffer]
        exact Nat.add_sub_cancel' hchunk.le
      have hrest : HoldsAt f (memaddr + BitVec.ofNat 16 n) ((b :: data).drop n) := by
        intro i hi
        rw [List.length_drop] at hi
        rw [BitVec.add_assoc, ← BitVec.ofNat_add, List.getElem_drop]
        exact hdata (n + i) (by omega)
      simp only [Option.getD_some, ne_eq, not_true_eq_false, decide_false, Bool.or_false, htake]
        at hexec
      rw [if_neg (not_not_intro hsame)] at hexec
      exact ih hleft hchunk.aligned hchunk.bound hbuffer' hrest pdev s tr r' pdev' s' hhold hexec hok

theorem holdsAt_overlay {data : List Byte} (hsize : data.length ≤ 2 ^ 16) :
    HoldsAt (overlay memaddr data f) memaddr data := fun _ hi => overlay_add hi hsize

theorem does_loadSteps {image dataCmp : List Byte} (halign : memaddr.toNat % 16 = 0)
    (hbound : memaddr.toNat + image.length ≤ 0xff00) (hbuffer : dataCmp.length = 16) :
    Does (Holding f) (loadSteps image memaddr dataCmp) fun retval pdev s => retval = Status.ok ∧
      Holding (overlay memaddr image f) pdev s ∧ pdev.firmwareLoaded = true := by
  have hwrite := @does_firmwareWriteLoop f memaddr image.length image (Nat.le_refl _)
    (Or.inr halign) hbound
  have hverify := @does_firmwareVerifyLoop (overlay memaddr image f) memaddr image.length image
    dataCmp false (Nat.le_refl _) (Or.inr halign) hbound hbuffer (holdsAt_overlay (by omega))
  refine Prog.Triple.guard does_power fun _ _ => Prog.Triple.guard does_power fun _ _ => ?_
  refine hwrite.guard fun _ _ => hverify.bind fun r => ?_
  refine Prog.Triple.ite (fun hne => ?_) fun _ => ?_
  · intro pdev s tr a pdev' s' hP _ _
    rw [hP.1] at hne
    exact absurd rfl hne
  · refine Prog.Triple.guard does_power fun retval hret => ?_
    have hloaded : ∀ pdev s, r = ⟨Status.ok, false⟩ ∧ Holding (overlay memaddr image f) pdev s →
        Holding (overlay memaddr image f) (if r.val then pdev else
          { pdev with firmwareLoaded := true }) s ∧
        (if r.val then pdev else { pdev with firmwareLoaded := true }).firmwareLoaded = true := by
      rintro pdev s ⟨rfl, h⟩
      exact ⟨⟨h.avail, h.bank, h.mem⟩, rfl⟩
    let Loaded : Device → Port DmpMemory → Prop := fun pdev s =>
      Holding (overlay memaddr image f) pdev s ∧ pdev.firmwareLoaded = true
    refine Prog.Triple.bind (M := fun _ => Loaded) (Prog.triple_modify hloaded) fun _ => ?_
    exact Prog.triple_pure fun pdev s h => ⟨hret, h⟩

/-- A firmware that is loaded already is left alone. -/
theorem does_invFirmwareLoad {image : List Byte} {loaded : Bool}
    (halign : memaddr.toNat % 16 = 0) (hbound : memaddr.toNat + image.length ≤ 0xff00) :
    Does (fun pdev s => Holding f pdev s ∧ pdev.firmwareLoaded = loaded)
      (invFirmwareLoad image memaddr) fun retval pdev s => retval = Status.ok ∧
        Holding (if loaded then f else overlay memaddr image f) pdev s ∧
        pdev.firmwareLoaded = true := by
  have hgarbage : (uninit 16).Uses OffPort := ⟨offPort_uninit, fun _ => trivial⟩
  have hsucc : (uninit 16).Succeeds Good fun _ => True := fun _ _ => trivial
  refine (does_offPort hgarbage hsucc).bind fun garbage => ?_
  refine Prog.triple_unless (fun _ _ h => not_eq_false_of_avail h.2.1.avail) fun pdev₀ => ?_
  refine Prog.Triple.ite (fun hyes => ?_) fun hno => ?_
  · apply Prog.triple_pure
    rintro pdev s ⟨rfl, -, hhold, hloaded⟩
    rw [hyes] at hloaded
    rw [← hloaded, if_pos rfl]
    exact ⟨rfl, hhold, hyes⟩
  · have hsteps := @does_loadSteps f memaddr image (List.ofFn garbage) halign hbound
      List.length_ofFn
    intro pdev s tr a pdev' s' hP hexec hok
    obtain ⟨rfl, -, hhold, hloaded⟩ := hP
    have hfalse : loaded = false := by
      rw [← hloaded]
      exact Bool.not_eq_true _ |>.mp hno
    rw [hfalse]
    exact hsteps pdev s tr a pdev' s' hhold hexec hok

end

/-! ## The other registers -/

/-- Not one of the three through which the memory is reached. -/
def offPort (reg : Byte) : Prop :=
  reg ≠ agb0RegMemBankSel ∧ reg ≠ agb0RegMemStartAddr ∧ reg ≠ agb0RegMemRW

instance (reg : Byte) : Decidable (offPort reg) := inferInstanceAs (Decidable (_ ∧ _))

theorem offPort_enables : AllEnables offPort := by
  unfold AllEnables
  decide

theorem onPeripheral {peripheral : Byte} {regs : PeriphRegs}
    (hregs : periphRegs peripheral = some regs) (c : PeriphConfig) :
    OnRegisters offPort (i2cControllerConfigurePeripheral peripheral c) := by
  have hoff : offPort regs.periphAddrReg ∧ offPort regs.periphDoReg ∧ offPort regs.periphRegReg ∧
      offPort regs.periphCtrlReg :=
    @periphRegs_forall (fun regs => offPort regs.periphAddrReg ∧ offPort regs.periphDoReg ∧
      offPort regs.periphRegReg ∧ offPort regs.periphCtrlReg) (by decide) (by decide) (by decide)
      (by decide) _ _ hregs
  exact onRegisters_configurePeripheral hregs hoff.1 hoff.2.1 hoff.2.2.1 hoff.2.2.2 c

/-! ## The methods -/

namespace Icm20948

/-- Without failures on the device whose memory works. -/
abbrev Does {α : Type} (P : Icm20948 → Port DmpMemory → Prop) (p : Method α)
    (Q : α → Icm20948 → Port DmpMemory → Prop) : Prop :=
  Prog.Triple memoryBacking.device Good P p Q

/-- Whether the firmware is loaded, with what is recorded of the sensors. -/
abbrev Kept := Bool × Bool × BitVec 32 × BitVec 32 × BitVec 32 × BitVec 32

def kept (pdev : Device) : Kept := (pdev.firmwareLoaded, pdev.recorded)

/-- The memory is the one for the correction of the clock that has been recorded. -/
structure Holds (mem : Byte → BitVec 16 → Byte) (rest : Kept) (icm : Icm20948)
    (s : Port DmpMemory) : Prop where
  holding : Holding (mem icm.device.gyroSFpll) icm.device s
  rest : kept icm.device = rest

section
variable {mem mem' : Byte → BitVec 16 → Byte} {rest rest' : Kept}

theorem does_report {P : Icm20948 → Port DmpMemory → Prop} {result : Status}
    (hP : ∀ icm s, P icm s → P { icm with status := result } s) :
    Does P (report result) fun status icm s => status = result ∧ P icm s :=
  (triple_report hP).post fun _ _ _ h => ⟨h.1, h.2.2⟩

theorem Holds.report {icm : Icm20948} {s : Port DmpMemory} (h : Holds mem rest icm s)
    (result : Status) : Holds mem rest { icm with status := result } s := ⟨h.holding, h.rest⟩

/-- A step moves the memory on, and the worst it returns is `Err`. -/
def Moves (P : Icm20948 → Port DmpMemory → Prop) (step : Method Status)
    (Q : Icm20948 → Port DmpMemory → Prop) : Prop :=
  Does P step fun result icm s => result ≤ Status.err ∧ Q icm s

theorem moves_ifDmp {step : Method Status} {Q : Icm20948 → Port DmpMemory → Prop}
    (h : Moves (Holds mem rest) step Q) : Moves (Holds mem rest) (ifDmp step) Q :=
  triple_ifDmp (fun _ _ hP => hP.holding.avail) h

/-- A method that accesses other registers. -/
theorem moves_register {p : Io Status} (hp : OnRegisters offPort p) :
    Moves (Holds mem rest) (liftM p >>= report) (Holds mem rest) := by
  let Q : Status → Icm20948 → Port DmpMemory → Prop := fun status icm s =>
    status = Status.ok ∧ Holds mem rest icm s
  have hlift : Does (Holds mem rest) (liftM p) Q := by
    apply Prog.triple_lift
    intro icm s tr status s' h hexec hok
    refine ⟨hp.succeeds.exec hexec hok, ?_⟩
    rw [(Prog.Exec.steady (fun _ _ _ _ he h => device_offPort he h) hp.uses hexec).1]
    exact h
  refine hlift.bind fun status => ?_
  refine (does_report (P := Q status) fun icm s h => ⟨h.1, h.2.report status⟩).post ?_
  rintro result icm s ⟨rfl, hok, h⟩
  rw [hok]
  exact ⟨by decide, h⟩

/-- A driver function that succeeds, with what it leaves alone. -/
theorem moves_onDevice {p : Drv Status}
    (h : Imu.Does (fun pdev s => Holding (mem pdev.gyroSFpll) pdev s ∧ kept pdev = rest)
      p fun retval pdev s => retval = Status.ok ∧ Holding (mem' pdev.gyroSFpll) pdev s ∧
        kept pdev = rest') :
    Moves (Holds mem rest) (onDevice p >>= report) (Holds mem' rest') := by
  have hcall := triple_onDevice h
  refine Prog.Triple.bind (hcall.pre fun icm s h => ⟨h.holding, h.rest⟩) fun status => ?_
  let Q : Icm20948 → Port DmpMemory → Prop := fun icm s =>
    status = Status.ok ∧ Holds mem' rest' icm s
  refine ((does_report (P := Q) fun icm s h => ⟨h.1, h.2.report status⟩).pre ?_).post ?_
  · exact fun icm s h => ⟨h.1, h.2.1, h.2.2⟩
  · rintro result icm s ⟨rfl, hok, h⟩
    rw [hok]
    exact ⟨by decide, h⟩

/-- A write of the memory that stays within its bank. -/
theorem moves_writeDmpMems {reg : BitVec 16} {data : List Byte}
    (hwithin : reg.toNat % 256 + data.length ≤ 256) (hbank : hiByte reg ≠ 255) :
    Moves (Holds mem rest) (writeDmpMems reg (some data))
      (Holds (fun pll => overlay reg data (mem pll)) rest) := by
  refine moves_ifDmp (moves_onDevice ?_)
  intro pdev s tr retval pdev' s' h hexec hok
  obtain ⟨hret, hhold⟩ := does_writeMems hwithin hbank pdev s tr retval pdev' s' h.1 hexec hok
  have hpll : pdev'.gyroSFpll = pdev.gyroSFpll :=
    (leaves_writeMems (fun _ _ => rfl) reg _ pdev).exec hexec
  have hrest : kept pdev' = kept pdev :=
    (leaves_writeMems (fun _ _ => rfl) reg _ pdev).exec hexec
  rw [hpll, hrest]
  exact ⟨hret, hhold, h.2⟩

theorem moves_setGyroSf {f : BitVec 16 → Byte} (div : Byte) (gyroLevel : Int) :
    Moves (Holds (fun _ => f) rest) (setGyroSf div gyroLevel)
      (Holds (fun pll => assigned (gyroSfWords (gyroSfOf pll div)) f) rest) := by
  refine moves_ifDmp (moves_onDevice ?_)
  have hleaves : Prog.Leaves kept (Imu.setGyroSf div gyroLevel) :=
    leaves_setGyroSf (fun _ _ => rfl) (fun _ _ => rfl) (fun _ _ => rfl) div gyroLevel
  refine ((does_setGyroSf div gyroLevel).frame hleaves).post fun retval pdev s h => ?_
  exact ⟨h.1.1, h.1.2, h.2⟩

theorem moves_setDmpStartAddress (address : BitVec 16) :
    Moves (Holds mem rest) (setDmpStartAddress address) (Holds mem rest) := by
  refine moves_ifDmp (moves_onDevice ?_)
  have hreg : offPort agb2RegPrgmStartAddrh := by decide
  have hwrite := @OnRegisters.write offPort _ hreg [hiByte address, loByte address]
  refine Prog.triple_unless (fun _ _ h => not_eq_false_of_avail h.1.avail) fun pdev₀ => ?_
  let M : Status → Device → Port DmpMemory → Prop := fun result pdev s =>
    result = Status.ok ∧ Holding (mem pdev.gyroSFpll) pdev s ∧ kept pdev = rest
  have hbank : Imu.Does (fun pdev s => pdev = pdev₀ ∧ Holding (mem pdev.gyroSFpll) pdev s ∧
      kept pdev = rest) (liftM (Imu.setBank 2)) M := Prog.triple_pure fun pdev s h => ⟨rfl, h.2⟩
  exact hbank.guard fun _ _ => does_offPort hwrite.uses hwrite.succeeds

/-- The enables are read, written and read back; only the readback can disagree. -/
theorem moves_intEnableWith (change : IntEnables → IntEnables) (confirmed : IntEnables → Bool) :
    Moves (Holds mem rest) (intEnableWith change confirmed) (Holds mem rest) := by
  have hcall (write : Option IntEnables) (dest : IntEnables) :
      Does (Holds mem rest) (liftM (intEnable write (some dest))) fun r icm s =>
        r.retval = Status.ok ∧ Holds mem rest icm s := by
    apply Prog.triple_lift
    intro icm s tr r s' h hexec hok
    refine ⟨(succeeds_intEnable write).exec hexec hok, ?_⟩
    rw [(Prog.Exec.steady (fun _ _ _ _ he h => device_offPort he h)
      (uses_intEnable offPort_enables write) hexec).1]
    exact h
  have hreport (result : Status) {P : Prop} : Does (fun icm s => P ∧ Holds mem rest icm s)
      (report result) fun status icm s => (status = result ∧ P) ∧ Holds mem rest icm s :=
    (does_report fun icm s h => ⟨h.1, h.2.report result⟩).post
      fun status icm s h => ⟨⟨h.1, h.2.1⟩, h.2.2⟩
  have hgarbage : Does (Holds mem rest) (liftM (uninit 4)) fun _ => Holds mem rest := by
    apply Prog.triple_lift
    intro icm s tr garbage s' h hexec _
    obtain ⟨hdev, -⟩ := (Prog.exec_perform _ _ _ _ _ _).mp hexec
    rw [device_offPort offPort_uninit hdev]
    exact h
  refine hgarbage.bind fun garbage => (hcall none _).bind fun r => ?_
  refine (hreport r.retval).bind fun status => Prog.Triple.ite (fun hne => ?_) fun _ => ?_
  · intro icm s tr a icm' s' hP _ _
    exact absurd (hP.1.1.trans hP.1.2) hne
  refine ((hcall (some _) _).pre fun icm s h => h.2).bind fun w => ?_
  refine (hreport w.retval).bind fun status => Prog.Triple.ite (fun hne => ?_) fun _ => ?_
  · intro icm s tr a icm' s' hP _ _
    exact absurd (hP.1.1.trans hP.1.2) hne
  refine Prog.Triple.ite (fun _ => ?_) fun _ => ?_
  · apply Prog.triple_pure
    intro icm s h
    rw [h.1.1.trans h.1.2]
    exact ⟨by decide, h.2⟩
  · refine (does_report fun icm s h => h.report Status.err).pre (fun icm s h => h.2) |>.post ?_
    rintro result icm s ⟨rfl, h⟩
    exact ⟨by decide, h⟩

theorem moves_loadDmpFirmware {build : Build} {f : BitVec 16 → Byte} (huse : build.useDmp = true)
    (hsize : dmpLoadStart.toNat + build.dmp3Image.length ≤ 0xff00) :
    Moves (Holds (fun _ => f) rest) (loadDmpFirmware build)
      (Holds (fun _ => if rest.1 then f else overlay dmpLoadStart build.dmp3Image f)
        (true, rest.2)) := by
  refine moves_ifDmp (moves_onDevice ?_)
  unfold firmwareLoad
  rw [if_pos huse]
  have hframe := @Prog.Triple.frame _ _ _ _ _ _ _ _ _ _ _ Device.recorded rest.2
    (@does_invFirmwareLoad f dmpLoadStart build.dmp3Image rest.1 rfl hsize)
    (leaves_invFirmwareLoad (fun _ _ => rfl) (fun _ _ => rfl) _ _)
  refine (hframe.pre fun pdev s h => ?_).post fun retval pdev s h => ?_
  · exact ⟨⟨h.1, congrArg Prod.fst h.2⟩, congrArg Prod.snd h.2⟩
  · exact ⟨h.1.1, h.1.2.1, Prod.ext h.1.2.2 h.2⟩

end

/-! ## The whole -/

section
variable {P Q Q' : Icm20948 → Port DmpMemory → Prop} {step : Method Status}
  {steps steps' : List (Method Status)}

/-- Whatever the worst result was, the steps move the memory on, and nothing exceeds `Err`. -/
def MovesAll (P : Icm20948 → Port DmpMemory → Prop) (steps : List (Method Status))
    (Q : Icm20948 → Port DmpMemory → Prop) : Prop :=
  ∀ worstResult ≤ Status.err, Moves P (worstOf steps worstResult) Q

theorem movesAll_nil : MovesAll P [] P :=
  fun _ hworst => Prog.triple_pure fun _ _ h => ⟨hworst, h⟩

theorem MovesAll.cons (hstep : Moves P step Q) (hsteps : MovesAll Q steps Q') :
    MovesAll P (step :: steps) Q' := by
  intro worstResult hworst
  refine Prog.Triple.bind hstep fun result => ?_
  intro icm s tr r icm' s' hP
  have hworse : worse worstResult result ≤ Status.err := by
    unfold worse
    split
    · exact hP.1
    · exact hworst
  exact hsteps _ hworse icm s tr r icm' s' hP.2

theorem MovesAll.append (hsteps : MovesAll P steps Q) (hsteps' : MovesAll Q steps' Q') :
    MovesAll P (steps ++ steps') Q' := by
  intro worstResult hworst
  rw [worstOf_append]
  refine (hsteps worstResult hworst).bind fun worse => ?_
  intro icm s tr r icm' s' hP
  exact hsteps' worse hP.1 icm s tr r icm' s' hP.2

end

section
variable {mem : Byte → BitVec 16 → Byte} {rest : Kept} {f : BitVec 16 → Byte}

/-- A table of writes, each within its bank. -/
theorem movesAll_writeAll {writes : List (BitVec 16 × List Byte)}
    (hwithin : ∀ w ∈ writes, w.1.toNat % 256 + w.2.length ≤ 256 ∧ hiByte w.1 ≠ 255) :
    MovesAll (Holds mem rest) (writeAll writes)
      (Holds (fun pll => overlays writes (mem pll)) rest) := by
  induction writes generalizing mem with
  | nil => exact movesAll_nil
  | cons w writes ih =>
    obtain ⟨hfirst, hbank⟩ := hwithin w List.mem_cons_self
    exact .cons (moves_writeDmpMems hfirst hbank) <|
      ih fun w' hw' => hwithin w' (List.mem_cons_of_mem _ hw')

/-- The parameters that `initializeDMP` writes over the image. -/
def dmpParams (pll : Byte) : List (BitVec 16 × List Byte) :=
  mountWrites ++ (gyroSfWords (gyroSfOf pll 19)).map
    (fun word => (word.1, [hiByte word.2, loByte word.2])) ++ scaleWrites ++
    [(cpassTimeBuffer, [0x00, 0x45])]

theorem movesAll_dmpSteps {build : Build} (huse : build.useDmp = true)
    (hsize : dmpLoadStart.toNat + build.dmp3Image.length ≤ 0xff00) :
    MovesAll (Holds (fun _ => f) rest) (dmpSteps build ++ [dmpLastStep])
      (Holds (fun pll => overlays (dmpParams pll)
        (if rest.1 then f else overlay dmpLoadStart build.dmp3Image f)) (true, rest.2)) := by
  have hwithin (writes : List (BitVec 16 × List Byte))
      (hall : writes.all (fun w => decide (w.1.toNat % 256 + w.2.length ≤ 256 ∧
        hiByte w.1 ≠ 255)) = true) :
      ∀ w ∈ writes, w.1.toNat % 256 + w.2.length ≤ 256 ∧ hiByte w.1 ≠ 255 :=
    fun w hw => of_decide_eq_true (List.all_eq_true.mp hall w hw)
  have hload := @moves_loadDmpFirmware rest build f huse hsize
  let image : BitVec 16 → Byte := if rest.1 then f else overlay dmpLoadStart build.dmp3Image f
  have hparams : (fun pll => overlays (dmpParams pll) image) = fun pll =>
      overlay cpassTimeBuffer [0x00, 0x45] (overlays scaleWrites
        (assigned (gyroSfWords (gyroSfOf pll 19)) (overlays mountWrites image))) := by
    funext pll
    unfold dmpParams
    rw [overlays_append, overlays_append, overlays_append]
    rfl
  have hmount : MovesAll (Holds (fun _ => image) (true, rest.2)) (writeAll mountWrites)
      (Holds (fun _ => overlays mountWrites image) (true, rest.2)) :=
    movesAll_writeAll (hwithin mountWrites (by decide))
  have hgyro : MovesAll (Holds (fun _ => overlays mountWrites image) (true, rest.2)) [setGyroSf 19 3] _ :=
    .cons (moves_setGyroSf 19 3) movesAll_nil
  have hscale := @movesAll_writeAll (fun pll => assigned (gyroSfWords (gyroSfOf pll 19))
    (overlays mountWrites image)) (true, rest.2) scaleWrites (hwithin scaleWrites (by decide))
  have hlast := @moves_writeDmpMems (fun pll => overlays scaleWrites
    (assigned (gyroSfWords (gyroSfOf pll 19)) (overlays mountWrites image))) (true, rest.2)
    cpassTimeBuffer [0x00, 0x45] (by decide) (by decide)
  show MovesAll _ _ (Holds (fun pll => overlays (dmpParams pll) image) (true, rest.2))
  rw [hparams]
  refine .append (.append (.append (.append ?_ hmount) hgyro) hscale) (.cons hlast movesAll_nil)
  -- the registers one after another as `initializeDMP` sets them
  have hsensors : Sensors.has (internalAccGyr.setWidth 32) (internalAcc ||| internalGyr) := by decide
  have hgyroSensor : Sensors.has ((2 : Byte).setWidth 32) (internalAcc ||| internalGyr) := by decide
  have hrate : OnRegisters offPort (Imu.setSampleRate (internalAccGyr.setWidth 32) ⟨19, 19⟩) :=
    ⟨uses_setSampleRate (fun _ => among_write (by decide) _) (fun _ => among_write (by decide) _)
      (fun _ => among_write (by decide) _) _ _, succeeds_setSampleRate hsensors _⟩
  refine .cons (moves_register (onPeripheral rfl _)) ?_
  refine .cons (moves_register (onPeripheral rfl _)) ?_
  refine .cons (moves_register onRegisters_ok) ?_
  refine .cons (moves_register (.write (by decide) _)) ?_
  refine .cons (moves_register (.updateReg (by decide) 0 _)) ?_
  refine .cons (moves_register onRegisters_ok) ?_
  refine .cons (moves_register (.write (by decide) _)) ?_
  refine .cons (moves_register (.updateReg (by decide) 0 _)) ?_
  refine .cons (moves_register (.updateReg (by decide) 0 _)) ?_
  refine .cons (moves_ifDmp (moves_register (.updateReg (by decide) 0 _))) ?_
  refine .cons (moves_register (onRegisters_setFullScale (by decide) (by decide) hsensors _)) ?_
  refine .cons (moves_register (onRegisters_enableDlpf (by decide) (by decide) hgyroSensor true)) ?_
  refine .cons (moves_register onRegisters_ok) ?_
  refine .cons (moves_register (.write (by decide) _)) ?_
  refine .cons (moves_register (.write (by decide) _)) ?_
  refine .cons (moves_intEnableWith _ _) ?_
  refine .cons (moves_register (onRegisters_resetFifo (by decide))) ?_
  refine .cons (moves_register hrate) ?_
  refine .cons (moves_setDmpStartAddress _) ?_
  refine .cons hload ?_
  refine .cons (moves_setDmpStartAddress _) ?_
  refine .cons (moves_register onRegisters_ok) ?_
  refine .cons (moves_register (.write (by decide) _)) ?_
  refine .cons (moves_register onRegisters_ok) ?_
  exact .cons (moves_register (.write (by decide) _)) movesAll_nil

end

/-- Where the parameters lie and how long they are, whatever the correction of the clock. -/
def paramExtents : List (BitVec 16 × Nat) :=
  mountWrites.map (fun range => (range.1, range.2.length)) ++
    [(gyroSfAddr, 2), (gyroSfAddr + 2, 2)] ++
    scaleWrites.map (fun range => (range.1, range.2.length)) ++ [(cpassTimeBuffer, 2)]

theorem extents_dmpParams (pll : Byte) :
    (dmpParams pll).map (fun range => (range.1, range.2.length)) = paramExtents := by
  unfold dmpParams paramExtents
  rw [List.map_append, List.map_append, List.map_append, List.map_map]
  rfl

theorem apart_dmpParams (pll : Byte) :
    ((dmpParams pll).map fun range => (range.1, range.2.length)).Pairwise RangesApart := by
  rw [extents_dmpParams]
  decide +kernel

theorem length_dmpParams {pll : Byte} {range : BitVec 16 × List Byte}
    (h : range ∈ dmpParams pll) : range.2.length ≤ 4 := by
  have hall : paramExtents.all (fun extent => extent.2 ≤ 4) = true := by decide
  have hmem : (range.1, range.2.length) ∈ paramExtents := by
    rw [← extents_dmpParams pll]
    exact List.mem_map.mpr ⟨range, h, rfl⟩
  exact of_decide_eq_true (List.all_eq_true.mp hall _ hmem)

/-- No byte of a parameter is at the address. -/
def OutsideParams (pll : Byte) (a : BitVec 16) : Prop :=
  ∀ range ∈ dmpParams pll, range.2.length ≤ (a - range.1).toNat

/-- A computation over the addresses. -/
theorem outsideParams_of_extents {pll : Byte} {a : BitVec 16}
    (h : paramExtents.all (fun extent => extent.2 ≤ (a - extent.1).toNat) = true) :
    OutsideParams pll a := by
  intro range hrange
  have hmem : (range.1, range.2.length) ∈ paramExtents := by
    rw [← extents_dmpParams pll]
    exact List.mem_map.mpr ⟨range, hrange, rfl⟩
  exact of_decide_eq_true (List.all_eq_true.mp h _ hmem)

theorem initializeDmp_holds {build : Build} {icm icm' : Icm20948} {s s' : Port DmpMemory}
    {tr : BusTrace (Port DmpMemory)} {result : Status} (huse : build.useDmp = true)
    (hsize : dmpLoadStart.toNat + build.dmp3Image.length ≤ 0xff00)
    (havail : icm.device.dmpFirmwareAvailable = true) (hbank : CacheAgrees icm.device s)
    (hexec : Prog.Exec memoryBacking.device ((initializeDmp build).run icm) s tr (result, icm') s')
    (hok : AllOk tr) :
    result ≤ Status.err ∧ Holds (fun pll => overlays (dmpParams pll)
      (if icm.device.firmwareLoaded then s.mem.at
        else overlay dmpLoadStart build.dmp3Image s.mem.at)) (true, icm.device.recorded) icm' s' := by
  have hsteps := moves_ifDmp (@movesAll_dmpSteps (kept icm.device) s.mem.at build huse hsize
    Status.ok (by decide))
  unfold initializeDmp at hexec
  rw [if_pos huse] at hexec
  exact hsteps icm s tr result icm' s' ⟨⟨havail, hbank, rfl⟩, rfl⟩ hexec hok

/-- No word that the later calls write is at the address. -/
def OutsideWords (b : BitVec 16) : Prop := ∀ a ∈ dmpWords, b ≠ a ∧ b ≠ a + 1

theorem ne_of_two_le_sub {a b : BitVec 16} (h : 2 ≤ (b - a).toNat) : b ≠ a ∧ b ≠ a + 1 := by
  constructor
  · rintro rfl
    rw [BitVec.sub_self] at h
    exact absurd h (by decide)
  · rintro rfl
    have hone : a + 1 - a = 1 := by rw [BitVec.add_comm, BitVec.add_sub_cancel]
    rw [hone] at h
    exact absurd h (by decide)

/-- Apart from the gyro's scaling, no parameter lies where a call writes. -/
theorem outsideWords_param {pll : Byte} {range : BitVec 16 × List Byte}
    (hrange : range ∈ dmpParams pll) (hne : range.1 ≠ gyroSfAddr ∧ range.1 ≠ gyroSfAddr + 2)
    {i : Nat} (hi : i < range.2.length) : OutsideWords (range.1 + BitVec.ofNat 16 i) := by
  intro a ha
  have hall : paramExtents.all (fun extent => decide (extent.1 = gyroSfAddr) ||
      decide (extent.1 = gyroSfAddr + 2) ||
      dmpWords.all fun a => RangesApart extent (a, 2)) = true := by decide +kernel
  have hmem : (range.1, range.2.length) ∈ paramExtents := by
    rw [← extents_dmpParams pll]
    exact List.mem_map.mpr ⟨range, hrange, rfl⟩
  have hone := List.all_eq_true.mp hall _ hmem
  rw [Bool.or_eq_true, Bool.or_eq_true, decide_eq_true_eq, decide_eq_true_eq] at hone
  have hwords := hone.resolve_left (not_or.mpr hne)
  have hapart := of_decide_eq_true (List.all_eq_true.mp hwords a ha)
  exact ne_of_two_le_sub (hapart.le_sub hi)

/-- The words of the gyro's scaling as `initializeDMP` leaves them. -/
theorem wordAt_gyroSf {pll : Byte} {f : BitVec 16 → Byte} {m : DmpMemory}
    (hmem : m.at = overlays (dmpParams pll) f) :
    wordAt m gyroSfAddr = (gyroSfOf pll 19 >>> 16).setWidth 16 ∧
      wordAt m (gyroSfAddr + 2) = (gyroSfOf pll 19).setWidth 16 := by
  have hword {word : BitVec 16 × BitVec 16} (hword : word ∈ gyroSfWords (gyroSfOf pll 19)) :
      wordAt m word.1 = word.2 := by
    have hrange : (word.1, [hiByte word.2, loByte word.2]) ∈ dmpParams pll := by
      apply List.mem_append_left
      apply List.mem_append_left
      exact List.mem_append_right _ (List.mem_map.mpr ⟨word, hword, rfl⟩)
    have hat {i : Nat} (hi : i < [hiByte word.2, loByte word.2].length) :
        m.at (word.1 + BitVec.ofNat 16 i) = [hiByte word.2, loByte word.2][i] := by
      have hsize : [hiByte word.2, loByte word.2].length ≤ 2 ^ 16 := by
        show 2 ≤ 2 ^ 16
        omega
      rw [hmem]
      exact overlays_add (apart_dmpParams pll) hrange hi hsize
    have hhi : m.at word.1 = hiByte word.2 := by
      have hfirst := @hat 0 (Nat.zero_lt_succ 1)
      rwa [show word.1 + BitVec.ofNat 16 0 = word.1 from BitVec.add_zero _] at hfirst
    have hlo : m.at (word.1 + 1) = loByte word.2 := @hat 1 (Nat.lt_succ_self 1)
    rw [wordAt_eq, flatWord, hhi, hlo, hiByte_append_loByte]
  exact ⟨@hword (_, _) List.mem_cons_self,
    @hword (_, _) (List.mem_cons_of_mem _ List.mem_cons_self)⟩

end Icm20948

end SimuSound.Imu
