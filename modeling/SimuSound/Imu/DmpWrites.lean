import SimuSound.Reasoning.Overlay
import SimuSound.Reasoning.Triple
import SimuSound.Imu.FirmwareImage
import SimuSound.Imu.SensorEnables

/-!
# DmpWrites — the DMP's memory after calls of the driver

The registers of the DMP are words of its memory.  Output rates, sensor enables, interrupts and the
gyro's scaling are each written by a function of their own, and the memory is what all the calls
have left in it.
-/

namespace SimuSound.Imu

open Reasoning

/-! ## The memory by absolute addresses -/

/-- Without failures on the device whose memory works. -/
abbrev Does {α : Type} (P : Device → Port DmpMemory → Prop) (p : Drv α)
    (Q : α → Device → Port DmpMemory → Prop) : Prop :=
  Prog.Triple memoryBacking.device Good P p Q

/-- The DMP is there, no wrong bank is remembered, and the memory is `f`. -/
structure Holding (f : BitVec 16 → Byte) (pdev : Device) (s : Port DmpMemory) : Prop where
  avail : pdev.dmpFirmwareAvailable = true
  bank : CacheAgrees pdev s
  mem : s.mem.at = f

section
variable {reg : BitVec 16} {data : List Byte}

/-- A range within its bank is written where it belongs. -/
theorem at_write (hwithin : reg.toNat % 256 + data.length ≤ 256) (m : DmpMemory) :
    (memoryBacking.write (hiByte reg) (loByte reg) data m).at = overlay reg data m.at := by
  have hlt := reg.isLt
  have hlen : reg.toNat + data.length ≤ 65536 := by omega
  obtain ⟨hin, hout⟩ := stored_of_wrapsHarmlessly hlen (wrapsHarmlessly_of_within hwithin m)
  funext a
  by_cases hcovered : ∃ i < data.length, a = reg + BitVec.ofNat 16 i
  · obtain ⟨i, hi, rfl⟩ := hcovered
    have hsize : data.length ≤ 2 ^ 16 := by omega
    rw [hin i hi, overlay_add hi hsize]
  · have hne : ∀ i < data.length, a ≠ reg + BitVec.ofNat 16 i :=
      fun i hi ha => hcovered ⟨i, hi, ha⟩
    rw [hout a hne, overlay_of_forall_ne hne]

theorem CacheAgrees.remembered {μ : Type} {pdev : Device} {s : Port μ} (h : CacheAgrees pdev s)
    (hbank : hiByte reg ≠ 255) : RememberedRight pdev s reg := by
  intro heq
  cases h with
  | inl hnone => exact absurd (heq.trans hnone) hbank
  | inr hsame => rw [heq, hsame]

variable {f : BitVec 16 → Byte}

theorem does_writeMems (hwithin : reg.toNat % 256 + data.length ≤ 256)
    (hbank : hiByte reg ≠ 255) :
    Does (Holding f) (writeMems reg (some data)) fun retval pdev s =>
      retval = Status.ok ∧ Holding (overlay reg data f) pdev s := by
  intro pdev s tr retval pdev' s' h hexec hok
  obtain ⟨hret, rfl, hsel, hmem⟩ := writeMems_good (h.bank.remembered hbank) hexec hok
  refine ⟨hret, h.avail, Or.inr hsel.symm, ?_⟩
  rw [hmem, at_write hwithin, h.mem]

theorem does_writeMems16 {value : BitVec 16} (hwithin : reg.toNat % 256 ≤ 254)
    (hbank : hiByte reg ≠ 255) :
    Does (Holding f) (writeMems16 reg value) fun retval pdev s =>
      retval = Status.ok ∧ Holding (overlay reg [hiByte value, loByte value] f) pdev s := by
  apply does_writeMems
  · show reg.toNat % 256 + 2 ≤ 256
    omega
  · exact hbank

/-- Changes of the power management do not reach the memory. -/
theorem does_power {assign : Byte → Byte} {P : Device → Port DmpMemory → Prop} :
    Does P (liftM (updateReg 0 agb0RegPwrMgmt1 assign) : Drv Status) fun retval pdev s =>
      retval = Status.ok ∧ P pdev s := by
  apply Prog.triple_lift
  intro pdev s tr retval s' h hexec hok
  refine ⟨(succeeds_updateReg _ _ _).exec hexec hok, ?_⟩
  rw [exec_powerMgmt hexec]
  exact h

theorem does_wakeFor {p : Drv Status} {P : Device → Port DmpMemory → Prop}
    {Q : Status → Device → Port DmpMemory → Prop} (h : Does P p Q) : Does P (wakeFor p) Q :=
  Prog.Triple.guard does_power fun _ _ => Prog.Triple.guard does_power fun _ _ => h

/-- Recording a control word, writing it and going on. -/
theorem does_control {value : BitVec 16} {g : Device → Device} {q : Status → Drv Status}
    {Q : Status → Device → Port DmpMemory → Prop} (hreg : reg.toNat < 255)
    (hg : ∀ pdev s, Holding f pdev s → Holding f (g pdev) s)
    (hq : Does (Holding (overlay reg [hiByte value, loByte value] f)) (q Status.ok) Q) :
    Does (Holding f) (modify g >>= fun _ => writeMems16 reg value >>= fun result =>
      if result ≠ Status.ok then pure result else q result) Q := by
  have hbank : hiByte reg ≠ 255 := by
    intro h
    have hnat := congrArg BitVec.toNat h
    rw [toNat_hiByte] at hnat
    have hconst : (255 : Byte).toNat = 255 := rfl
    omega
  refine (Prog.triple_modify hg).bind fun _ => ?_
  refine Prog.Triple.guard (does_writeMems16 (by omega) hbank) fun retval hret => ?_
  rw [hret]
  exact hq

end

/-! ## Words -/

/-- `wordAt` for a memory by absolute addresses. -/
def flatWord (f : BitVec 16 → Byte) (a : BitVec 16) : BitVec 16 := f a ++ f (a + 1)

theorem wordAt_eq (m : DmpMemory) (a : BitVec 16) : wordAt m a = flatWord m.at a := rfl

/-- The memory after big-endian words have been written to their addresses. -/
def assigned (words : List (BitVec 16 × BitVec 16)) (f : BitVec 16 → Byte) : BitVec 16 → Byte :=
  overlays (words.map fun word => (word.1, [hiByte word.2, loByte word.2])) f

/-- No byte of the word at `a` is one of the word at `reg`. -/
def Clear (a reg : BitVec 16) : Prop := 2 ≤ (a - reg).toNat ∧ 2 ≤ (a + 1 - reg).toNat

instance (a reg : BitVec 16) : Decidable (Clear a reg) := inferInstanceAs (Decidable (_ ∧ _))

section
variable {f : BitVec 16 → Byte} {a reg value : BitVec 16} {words : List (BitVec 16 × BitVec 16)}

theorem assigned_nil : assigned [] f = f := rfl

theorem assigned_cons (word : BitVec 16 × BitVec 16) :
    assigned (word :: words) f =
      assigned words (overlay word.1 [hiByte word.2, loByte word.2] f) := rfl

theorem flatWord_overlay : flatWord (overlay reg [hiByte value, loByte value] f) reg = value := by
  have hat {i : Nat} (hi : i < [hiByte value, loByte value].length) :
      overlay reg [hiByte value, loByte value] f (reg + BitVec.ofNat 16 i) =
        [hiByte value, loByte value][i] := by
    apply overlay_add hi
    show 2 ≤ 2 ^ 16
    omega
  have hhi : overlay reg [hiByte value, loByte value] f reg = hiByte value := by
    have hfirst := @hat 0 (Nat.zero_lt_succ 1)
    rwa [show reg + BitVec.ofNat 16 0 = reg from BitVec.add_zero reg] at hfirst
  have hlo : overlay reg [hiByte value, loByte value] f (reg + 1) = loByte value :=
    @hat 1 (Nat.lt_succ_self 1)
  unfold flatWord
  rw [hhi, hlo, hiByte_append_loByte]

theorem flatWord_overlay_clear (hclear : Clear a reg) :
    flatWord (overlay reg [hiByte value, loByte value] f) a = flatWord f a := by
  have hsize : [hiByte value, loByte value].length = 2 := rfl
  unfold flatWord
  rw [overlay_of_le (hsize ▸ hclear.1), overlay_of_le (hsize ▸ hclear.2)]

/-- Among words that do not overlap, the last one for an address decides. -/
theorem flatWord_assigned (hclear : ∀ word ∈ words, a ≠ word.1 → Clear a word.1) :
    flatWord (assigned words f) a = (words.reverse.lookup a).getD (flatWord f a) := by
  induction words generalizing f with
  | nil => rfl
  | cons word words ih =>
    rw [assigned_cons, ih fun other hother => hclear other (List.mem_cons_of_mem _ hother),
      List.reverse_cons, List.lookup_append]
    cases words.reverse.lookup a with
    | some v => rfl
    | none =>
      rw [Option.none_or, Option.getD_none, List.lookup_cons]
      by_cases ha : a = word.1
      · rw [ha, flatWord_overlay, beq_self_eq_true]
        rfl
      · rw [flatWord_overlay_clear (hclear word List.mem_cons_self ha), beq_false_of_ne ha]
        rfl

/-- What no word covers is what it was. -/
theorem assigned_of_forall (h : ∀ word ∈ words, 2 ≤ (a - word.1).toNat) :
    assigned words f a = f a := by
  apply overlays_of_forall
  intro range hrange
  obtain ⟨word, hword, rfl⟩ := List.mem_map.mp hrange
  exact h word hword

end

/-! ## The functions -/

/-- The words of an output rate: the register and its counter. -/
def periodWords (interval : BitVec 16) : Option (BitVec 16 × BitVec 16) →
    List (BitVec 16 × BitVec 16)
  | none => []
  | some regs => [(regs.1, interval), (regs.2, 0)]

/-- The four control words for a set of sensors. -/
def outputWords (E : Finset ℕ) : List (BitVec 16 × BitVec 16) := [
  (dataOutCtl1Addr, (controlsFor E).dataOutCtl1),
  (dataOutCtl2Addr, (controlsFor E).dataOutCtl2),
  (dataRdyStatusAddr, (controlsFor E).dataRdyStatus),
  (motionEventCtlAddr, (controlsFor E).motionEventCtl)]

/-- The two words of `GYRO_SF`. -/
def gyroSfWords (gyroSf : BitVec 32) : List (BitVec 16 × BitVec 16) :=
  [(gyroSfAddr, (gyroSf >>> 16).setWidth 16), (gyroSfAddr + 2, gyroSf.setWidth 16)]

theorem overlay_gyroSf (gyroSf : BitVec 32) (f : BitVec 16 → Byte) :
    overlay gyroSfAddr [(gyroSf >>> 24).setWidth 8, (gyroSf >>> 16).setWidth 8,
      (gyroSf >>> 8).setWidth 8, (gyroSf &&& 0xff).setWidth 8] f =
      assigned (gyroSfWords gyroSf) f := by
  have hlt := gyroSf.isLt
  have hbytes : [(gyroSf >>> 24).setWidth 8, (gyroSf >>> 16).setWidth 8,
      (gyroSf >>> 8).setWidth 8, (gyroSf &&& 0xff).setWidth 8] =
      [hiByte ((gyroSf >>> 16).setWidth 16), loByte ((gyroSf >>> 16).setWidth 16)] ++
        [hiByte (gyroSf.setWidth 16), loByte (gyroSf.setWidth 16)] := by
    have hmask : gyroSf.toNat &&& 0xff = gyroSf.toNat % 256 := Nat.and_two_pow_sub_one_eq_mod _ 8
    simp only [List.cons_append, List.nil_append, List.cons.injEq, and_true, ← BitVec.toNat_inj,
      toNat_hiByte, toNat_loByte, BitVec.toNat_setWidth, BitVec.toNat_ushiftRight,
      BitVec.toNat_and, Nat.shiftRight_eq_div_pow, show (0xff : BitVec 32).toNat = 0xff from rfl,
      hmask]
    omega
  have hsize : 4 ≤ 2 ^ 16 := by omega
  rw [hbytes]
  exact overlay_append _ _ _ _ hsize

/-- The registers of the table lie in bank 0. -/
theorem odrTable_bound {regs : BitVec 16 × BitVec 16} (h : regs ∈ odrTable) :
    regs.1.toNat < 255 ∧ regs.2.toNat < 255 := by
  have hall : odrTable.all (fun regs => regs.1.toNat < 255 ∧ regs.2.toNat < 255) = true := by decide
  exact of_decide_eq_true (List.all_eq_true.mp hall regs h)

theorem mem_odrTable {odrReg : BitVec 32} {regs : BitVec 16 × BitVec 16}
    (h : odrRegs odrReg = some regs) : regs ∈ odrTable ∧ regs.1.setWidth 32 = odrReg := by
  have hfound := List.find?_some h
  exact ⟨List.mem_of_find?_eq_some h, of_decide_eq_true hfound⟩

theorem hiByte_ne_of_lt {reg : BitVec 16} (h : reg.toNat < 255) : hiByte reg ≠ 255 := by
  intro heq
  have hnat := congrArg BitVec.toNat heq
  rw [toNat_hiByte] at hnat
  have hconst : (255 : Byte).toNat = 255 := rfl
  omega

section
variable {f : BitVec 16 → Byte}

/-- The check that begins every function. -/
theorem does_ifAvail {b : Status} {p : Drv Status} {Q : Status → Device → Port DmpMemory → Prop}
    (h : Does (Holding f) p Q) :
    Does (Holding f) (get >>= fun pdev =>
      if pdev.dmpFirmwareAvailable = false then pure b else p) Q :=
  Prog.triple_unless (fun _ _ hhold => not_eq_false_of_avail hhold.avail) fun _ =>
    h.pre fun _ _ hP => hP.2

theorem does_writeSensorPeriod {odrReg : BitVec 32} {interval : BitVec 16} :
    Does (Holding f) (writeSensorPeriod odrReg interval) fun results pdev s =>
      results.2 = Status.ok ∧ Holding (assigned (periodWords interval (odrRegs odrReg)) f) pdev s := by
  unfold writeSensorPeriod
  cases hregs : odrRegs odrReg with
  | none =>
    apply Prog.triple_pure
    exact fun pdev s h => ⟨rfl, h⟩
  | some regs =>
    obtain ⟨hreg, hcntr⟩ := odrTable_bound (mem_odrTable hregs).1
    refine (does_writeMems16 (by omega) (hiByte_ne_of_lt hreg)).bind fun result => ?_
    have hzero := @does_writeMems16 regs.2 (overlay regs.1 [hiByte interval, loByte interval] f) 0
      (by omega) (hiByte_ne_of_lt hcntr)
    refine (hzero.pre fun pdev s h => h.2).bind fun result2 => ?_
    apply Prog.triple_pure
    exact fun pdev s h => h

theorem does_setDmpSensorPeriod {odrReg : BitVec 32} {interval : BitVec 16} :
    Does (Holding f) (setDmpSensorPeriod odrReg interval) fun retval pdev s =>
      retval = Status.ok ∧ Holding (assigned (periodWords interval (odrRegs odrReg)) f) pdev s := by
  refine does_ifAvail (does_wakeFor ?_)
  refine does_writeSensorPeriod.bind fun results => ?_
  refine Prog.Triple.guard does_power fun retval hret => ?_
  -- an unknown register has left `Ok` in the second result
  refine Prog.Triple.ite (fun hgt => ?_) fun _ => ?_
  · intro pdev s tr a pdev' s' hP _ _
    rw [hP.1, hret] at hgt
    exact absurd hgt (by decide)
  · apply Prog.triple_pure
    exact fun pdev s h => ⟨hret, h.2⟩

theorem does_configureOutputs {acc : Rebuild} :
    Does (Holding f) (configureOutputs acc) fun retval pdev s => retval = Status.ok ∧
      Holding (assigned [(dataOutCtl1Addr, acc.delta), (dataOutCtl2Addr, accuracyBits acc.delta),
        (dataRdyStatusAddr, acc.dataRdyStatus),
        (motionEventCtlAddr, acc.invEventControl ||| eventBits acc.delta)] f) pdev s := by
  apply does_wakeFor
  unfold writeOutputs
  -- what is recorded of a word is not where the memory is
  refine does_control (by decide) (fun _ _ h => ⟨h.avail, h.bank, h.mem⟩) ?_
  refine does_control (by decide) (fun _ _ h => ⟨h.avail, h.bank, h.mem⟩) ?_
  refine does_control (by decide) (fun _ _ h => ⟨h.avail, h.bank, h.mem⟩) ?_
  refine does_control (by decide) (fun _ _ h => ⟨h.avail, h.bank, h.mem⟩) ?_
  exact does_power

theorem does_configureInterrupts {delta : BitVec 16} :
    Does (Holding f) (configureInterrupts delta) fun retval pdev s => retval = Status.ok ∧
      Holding (assigned [(dataIntrCtlAddr, delta)] f) pdev s := by
  apply does_wakeFor
  unfold writeInterrupts
  have hmodify : ∀ pdev s, Holding f pdev s → Holding f { pdev with dataIntrCtl := delta } s :=
    fun _ _ h => ⟨h.avail, h.bank, h.mem⟩
  refine (Prog.triple_modify hmodify).bind fun _ => ?_
  refine (does_writeMems16 (by decide) (by decide)).bind fun _ => ?_
  exact does_power.post fun retval pdev s h => ⟨h.1, h.2.2⟩

/-- Accesses to other registers do not reach the memory. -/
theorem does_offPort {α : Type} {p : Io α} {succ : α → Prop} {P : Device → Port DmpMemory → Prop}
    (huses : p.Uses OffPort) (hsucceeds : p.Succeeds Good succ) :
    Does P (liftM p : Drv α) fun a pdev s => succ a ∧ P pdev s := by
  apply Prog.triple_lift
  intro pdev s tr a s' h hexec hok
  refine ⟨hsucceeds.exec hexec hok, ?_⟩
  rw [(Prog.Exec.steady (fun _ _ _ _ he h => device_offPort he h) huses hexec).1]
  exact h

theorem offPort_readByte (dest : Byte) :
    (readByte agb1RegTimebaseCorrectionPll dest).Uses OffPort := by
  refine ⟨?_, fun _ => trivial⟩
  intro reg hmem
  obtain rfl := Option.some.inj hmem
  decide

theorem does_setGyroSf (div : Byte) (gyroLevel : Int) :
    Does (Holding f) (setGyroSf div gyroLevel) fun retval pdev s => retval = Status.ok ∧
      Holding (assigned (gyroSfWords (gyroSfOf pdev.gyroSFpll div)) f) pdev s := by
  refine does_ifAvail ?_
  have hgarbage : uninitByte.Uses OffPort := ⟨offPort_uninit, fun _ => trivial⟩
  have hsucc : uninitByte.Succeeds Good fun _ => True := fun _ _ => trivial
  refine (does_offPort hgarbage hsucc).bind fun garbage => ?_
  have hread := @does_offPort _ _ _ (Holding f) (offPort_readByte garbage)
    (succeeds_readByte _ garbage)
  -- selecting the bank does nothing
  refine Prog.Triple.bind (M := fun _ => Holding f) (Prog.triple_pure fun _ _ h => h.2) fun _ => ?_
  refine hread.guard fun r _ => ?_
  let Recorded : Device → Port DmpMemory → Prop := fun pdev s =>
    Holding f pdev s ∧ pdev.gyroSFpll = r.val
  have hpll : ∀ pdev s, Holding f pdev s → Recorded { pdev with gyroSFpll := r.val } s :=
    fun _ _ h => ⟨⟨h.avail, h.bank, h.mem⟩, rfl⟩
  have hsf : ∀ pdev s, Recorded pdev s →
      Recorded { pdev with gyroSF := gyroSfOf r.val div } s :=
    fun _ _ h => ⟨⟨h.1.avail, h.1.bank, h.1.mem⟩, h.2⟩
  refine (Prog.triple_modify hpll).bind fun _ => (Prog.triple_modify hsf).bind fun _ => ?_
  -- the correction that was read is still there after the bytes are written
  have hwithin : gyroSfAddr.toNat % 256 + 4 ≤ 256 := by decide
  let gyroSf := gyroSfOf r.val div
  have hwrite := @does_writeMems gyroSfAddr [(gyroSf >>> 24).setWidth 8,
    (gyroSf >>> 16).setWidth 8, (gyroSf >>> 8).setWidth 8, (gyroSf &&& 0xff).setWidth 8] f
    hwithin (by decide)
  rw [overlay_gyroSf] at hwrite
  refine (hwrite.frame (leaves_writeMems (fun _ _ => rfl) _ _)).post fun retval pdev s h => ?_
  rw [h.2]
  exact h.1

end

/-! ## Calls -/

/-- The functions of the driver that write registers of the DMP. -/
inductive SetupCall
  | switch (call : SensorCall)
  | period (odrReg : BitVec 32) (interval : BitVec 16)
  | gyroSf (div : Byte) (gyroLevel : Int)

namespace SetupCall

def run : SetupCall → Drv Status
  | switch call => call.run
  | period odrReg interval => setDmpSensorPeriod odrReg interval
  | gyroSf div gyroLevel => setGyroSf div gyroLevel

/-- An interrupt is not asked for with the number that is the size of the table. -/
def WithinTable : SetupCall → Prop
  | switch call => call.WithinTable
  | period _ _ | gyroSf _ _ => True

/-- What the call returns when nothing fails; a rate for an unknown register is set as well. -/
def answer : SetupCall → Status
  | switch call => if Supported call.androidSensor then Status.ok else Status.sensorNotSupported
  | period _ _ | gyroSf _ _ => Status.ok

/-- The sensors enabled after the call. -/
def enable (E : Finset ℕ) : SetupCall → Finset ℕ
  | switch (.enable sensor state) =>
    if Supported (sensorType2AndroidSensor sensor) then
      switched E (sensorType2AndroidSensor sensor) state
    else E
  | _ => E

/-- The sensors whose interrupts are enabled after it. -/
def enableIntr (E : Finset ℕ) : SetupCall → Finset ℕ
  | switch (.enableInt sensor state) =>
    if Supported (sensorType2AndroidSensor sensor) then
      switched E (sensorType2AndroidSensor sensor) state
    else E
  | _ => E

/-- The words that the call writes, by what the structure holds after it. -/
def assigns (pdev : Device) : SetupCall → List (BitVec 16 × BitVec 16)
  | switch (.enable sensor _) =>
    if Supported (sensorType2AndroidSensor sensor) then outputWords pdev.enabled else []
  | switch (.enableInt sensor _) =>
    if Supported (sensorType2AndroidSensor sensor) then
      [(dataIntrCtlAddr, controlWord pdev.enabledIntr)]
    else []
  | period odrReg interval => periodWords interval (odrRegs odrReg)
  | gyroSf div _ => gyroSfWords (gyroSfOf pdev.gyroSFpll div)

end SetupCall

/-- A call as it went. -/
structure SetupCalled where
  call : SetupCall
  retval : Status

/-- The call on a bus without failures. -/
def setupStep (w : Device × Port DmpMemory) (x : SetupCalled) (w' : Device × Port DmpMemory) :
    Prop :=
  ∃ bus, Prog.Exec memoryBacking.device (x.call.run.run w.1) w.2 bus (x.retval, w'.1) w'.2 ∧
    AllOk bus

/-- The DMP is there, no wrong bank is remembered, and all sensors recorded are in the table. -/
structure SetupReady (w : Device × Port DmpMemory) : Prop where
  avail : w.1.dmpFirmwareAvailable = true
  bank : CacheAgrees w.1 w.2
  table : InTable w.1.enabled
  tableIntr : InTable w.1.enabledIntr

theorem SetupReady.holding {w : Device × Port DmpMemory} (h : SetupReady w) :
    Holding w.2.mem.at w.1 w.2 := ⟨h.avail, h.bank, rfl⟩

/-- Recording a sensor does not reach the memory. -/
theorem Holding.record {f : BitVec 16 → Byte} {pdev : Device} {s : Port DmpMemory}
    (h : Holding f pdev s) (call : SensorCall) : Holding f (call.record pdev) s := by
  have hbank : (call.record pdev).lastMemsBank = pdev.lastMemsBank := by
    cases call with
    | enable sensor state =>
      show (pdev.switchSensor _ state).lastMemsBank = _
      unfold Device.switchSensor
      split <;> rfl
    | enableInt sensor state =>
      show (pdev.switchSensorInt _ state).lastMemsBank = _
      unfold Device.switchSensorInt
      split <;> rfl
  refine ⟨(call.avail_record pdev).trans h.avail, ?_, h.mem⟩
  unfold CacheAgrees
  rw [hbank]
  exact h.bank

/-- What one call does. -/
structure Configures (w : Device × Port DmpMemory) (x : SetupCalled)
    (w' : Device × Port DmpMemory) : Prop where
  ready : SetupReady w'
  answer : x.retval = x.call.answer
  enabled : w'.1.enabled = x.call.enable w.1.enabled
  enabledIntr : w'.1.enabledIntr = x.call.enableIntr w.1.enabledIntr
  memory : w'.2.mem.at = assigned (x.call.assigns w'.1) w.2.mem.at

section
variable {w w' : Device × Port DmpMemory} {retval : Status} {tr : BusTrace (Port DmpMemory)}

/-- A sensor that is not supported changes nothing. -/
theorem configures_unsupported {call : SensorCall} (hready : SetupReady w)
    (hwithin : call.WithinTable) (hsupported : ¬ Supported call.androidSensor)
    (hexec : Prog.Exec memoryBacking.device (call.run.run w.1) w.2 tr (retval, w'.1) w'.2) :
    Configures w ⟨.switch call, retval⟩ w' := by
  rw [call.run_unsupported hready.avail hsupported hwithin] at hexec
  obtain ⟨-, hret, hs⟩ := (Prog.exec_pure _ _ _ _ _ _).mp hexec
  obtain ⟨rfl, hpdev⟩ := Prod.mk.inj hret
  obtain rfl : w' = w := Prod.ext hpdev hs
  refine ⟨hready, (if_neg hsupported).symm, ?_, ?_, ?_⟩
  · cases call with
    | enable sensor state => exact (if_neg hsupported).symm
    | enableInt sensor state => rfl
  · cases call with
    | enable sensor state => rfl
    | enableInt sensor state => exact (if_neg hsupported).symm
  · have hnone : SetupCall.assigns w'.1 (.switch call) = [] := by
      cases call with
      | enable sensor state => exact if_neg hsupported
      | enableInt sensor state => exact if_neg hsupported
    show _ = assigned (SetupCall.assigns w'.1 (.switch call)) _
    rw [hnone, assigned_nil]

theorem configures_enable {sensor : BitVec 32} {state : Int} (hready : SetupReady w)
    (hsupported : Supported (sensorType2AndroidSensor sensor))
    (hexec : Prog.Exec memoryBacking.device ((enableDmpSensor sensor state).run w.1) w.2 tr
      (retval, w'.1) w'.2) (hok : AllOk tr) :
    Configures w ⟨.switch (.enable sensor state), retval⟩ w' := by
  have henabled := enabled_switchSensor w.1 hsupported.lt state
  have htable := hready.table.switched hsupported.1 state
  rw [← henabled] at htable
  rw [run_enableDmpSensor hready.avail hsupported, run_reconfigureOutputs htable] at hexec
  have hrecorded : w'.1.recorded = (w.1.switchSensor _ state).recorded :=
    (leaves_configureOutputs _ _).exec hexec
  obtain ⟨rfl, hhold⟩ := does_configureOutputs _ _ _ _ _ _
    (hready.holding.record (.enable sensor state)) hexec hok
  have henabled' := enabled_of_recorded hrecorded
  have hintr := (enabledIntr_of_recorded hrecorded).trans (enabledIntr_switchSensor _ _ _)
  refine ⟨⟨hhold.avail, hhold.bank, ?_, ?_⟩, (if_pos hsupported).symm, ?_, hintr, ?_⟩
  · rw [henabled']
    exact htable
  · rw [hintr]
    exact hready.tableIntr
  · rw [henabled', henabled]
    exact (if_pos hsupported).symm
  · rw [hhold.mem, ← henabled']
    exact congrArg (fun words => assigned words w.2.mem.at) (if_pos hsupported).symm

theorem configures_enableInt {sensor : BitVec 32} {state : Int} (hready : SetupReady w)
    (hsupported : Supported (sensorType2AndroidSensor sensor))
    (hexec : Prog.Exec memoryBacking.device ((enableDmpSensorInt sensor state).run w.1) w.2 tr
      (retval, w'.1) w'.2) (hok : AllOk tr) :
    Configures w ⟨.switch (.enableInt sensor state), retval⟩ w' := by
  have henabled := enabledIntr_switchSensorInt w.1 hsupported.lt state
  have htable := hready.tableIntr.switched hsupported.1 state
  rw [← henabled] at htable
  rw [run_enableDmpSensorInt hready.avail hsupported, run_reconfigureInterrupts htable] at hexec
  have hrecorded : w'.1.recorded = (w.1.switchSensorInt _ state).recorded :=
    (leaves_configureInterrupts _ _).exec hexec
  obtain ⟨rfl, hhold⟩ := does_configureInterrupts _ _ _ _ _ _
    (hready.holding.record (.enableInt sensor state)) hexec hok
  have henabled' := enabledIntr_of_recorded hrecorded
  have hother := (enabled_of_recorded hrecorded).trans (enabled_switchSensorInt _ _ _)
  refine ⟨⟨hhold.avail, hhold.bank, ?_, ?_⟩, (if_pos hsupported).symm, hother, ?_, ?_⟩
  · rw [hother]
    exact hready.table
  · rw [henabled']
    exact htable
  · rw [henabled', henabled]
    exact (if_pos hsupported).symm
  · rw [hhold.mem, ← henabled']
    exact congrArg (fun words => assigned words w.2.mem.at) (if_pos hsupported).symm

theorem leaves_setDmpSensorPeriod (odrReg : BitVec 32) (interval : BitVec 16) :
    Prog.Leaves Device.recorded (setDmpSensorPeriod odrReg interval) := by
  have hwrite : Prog.Leaves Device.recorded (writeSensorPeriod odrReg interval) := by
    unfold writeSensorPeriod
    split
    · exact Prog.leaves_pure _
    · refine (leaves_writeMems (fun _ _ => rfl) _ _).bind fun _ => ?_
      exact (leaves_writeMems (fun _ _ => rfl) _ _).bind fun _ => Prog.leaves_pure _
  refine Prog.leaves_get.bind fun _ => .ite (Prog.leaves_pure _) (leaves_wakeFor ?_)
  refine hwrite.bind fun _ => (Prog.leaves_lift _).bind fun _ => .ite (Prog.leaves_pure _) ?_
  exact .ite (Prog.leaves_pure _) (Prog.leaves_pure _)

/-- A call that leaves what is recorded of the sensors alone. -/
theorem configures_of_recorded {call : SetupCall} (hready : SetupReady w)
    (hrecorded : w'.1.recorded = w.1.recorded) (hanswer : retval = call.answer)
    (henable : ∀ E, call.enable E = E) (hintr : ∀ E, call.enableIntr E = E)
    (hhold : Holding (assigned (call.assigns w'.1) w.2.mem.at) w'.1 w'.2) :
    Configures w ⟨call, retval⟩ w' := by
  have henabled := enabled_of_recorded hrecorded
  have henabledIntr := enabledIntr_of_recorded hrecorded
  refine ⟨⟨hhold.avail, hhold.bank, ?_, ?_⟩, hanswer, ?_, ?_, hhold.mem⟩
  · rw [henabled]
    exact hready.table
  · rw [henabledIntr]
    exact hready.tableIntr
  · rw [henabled]
    exact (henable _).symm
  · rw [henabledIntr]
    exact (hintr _).symm

theorem setupStep_spec {x : SetupCalled} (hready : SetupReady w) (hwithin : x.call.WithinTable)
    (hstep : setupStep w x w') : Configures w x w' := by
  obtain ⟨call, retval⟩ := x
  obtain ⟨bus, hexec, hok⟩ := hstep
  cases call with
  | switch call =>
    by_cases hsupported : Supported call.androidSensor
    · cases call with
      | enable sensor state => exact configures_enable hready hsupported hexec hok
      | enableInt sensor state => exact configures_enableInt hready hsupported hexec hok
    · exact configures_unsupported hready hwithin hsupported hexec
  | period odrReg interval =>
    obtain ⟨hret, hhold⟩ := does_setDmpSensorPeriod _ _ _ _ _ _ hready.holding hexec hok
    have hrecorded : w'.1.recorded = w.1.recorded :=
      (leaves_setDmpSensorPeriod odrReg interval w.1).exec hexec
    exact configures_of_recorded hready hrecorded hret (fun _ => rfl) (fun _ => rfl) hhold
  | gyroSf div gyroLevel =>
    obtain ⟨hret, hhold⟩ := does_setGyroSf _ gyroLevel _ _ _ _ _ _ hready.holding hexec hok
    have hrecorded : w'.1.recorded = w.1.recorded :=
      (leaves_setGyroSf (fun _ _ => rfl) (fun _ _ => rfl) (fun _ _ => rfl) div gyroLevel _).exec
        hexec
    exact configures_of_recorded hready hrecorded hret (fun _ => rfl) (fun _ => rfl) hhold

end

/-! ## The words -/

def outputAddrs : List (BitVec 16) :=
  [dataOutCtl1Addr, dataOutCtl2Addr, dataRdyStatusAddr, motionEventCtlAddr]

/-- The output rates with their counters, and `GYRO_SF`. -/
def rateAddrs : List (BitVec 16) :=
  odrTable.flatMap (fun regs => [regs.1, regs.2]) ++ [gyroSfAddr, gyroSfAddr + 2]

/-- The words of the DMP's memory that these functions write. -/
def dmpWords : List (BitVec 16) := rateAddrs ++ outputAddrs ++ [dataIntrCtlAddr]

theorem clear_dmpWords {a reg : BitVec 16} (ha : a ∈ dmpWords) (hreg : reg ∈ dmpWords)
    (hne : a ≠ reg) : Clear a reg := by
  -- a computation over the list
  have hall : dmpWords.all (fun a => dmpWords.all fun reg => a = reg ∨ Clear a reg) = true := by
    decide +kernel
  have hone := List.all_eq_true.mp hall a ha
  exact (of_decide_eq_true (List.all_eq_true.mp hone reg hreg)).resolve_left hne

namespace SetupCall

/-- The call writes the control words. -/
def SetsOutputs : SetupCall → Prop
  | switch (.enable sensor _) => Supported (sensorType2AndroidSensor sensor)
  | _ => False

/-- The call writes the interrupt word. -/
def SetsInterrupts : SetupCall → Prop
  | switch (.enableInt sensor _) => Supported (sensorType2AndroidSensor sensor)
  | _ => False

variable {call : SetupCall} {pdev : Device}

/-- Every group of words is written by the calls for it. -/
theorem assigns_cases {word : BitVec 16 × BitVec 16} (h : word ∈ call.assigns pdev) :
    (call.SetsOutputs ∧ word.1 ∈ outputAddrs) ∨
      (call.SetsInterrupts ∧ word.1 = dataIntrCtlAddr) ∨ word.1 ∈ rateAddrs := by
  cases call with
  | switch call =>
    cases call with
    | enable sensor state =>
      have h : word ∈ if Supported (sensorType2AndroidSensor sensor) then
        outputWords pdev.enabled else [] := h
      split at h
      · simp only [outputWords, List.mem_cons, List.not_mem_nil, or_false] at h
        refine Or.inl ⟨‹_›, ?_⟩
        rcases h with rfl | rfl | rfl | rfl <;> simp [outputAddrs]
      · exact absurd h List.not_mem_nil
    | enableInt sensor state =>
      have h : word ∈ if Supported (sensorType2AndroidSensor sensor) then
        [(dataIntrCtlAddr, controlWord pdev.enabledIntr)] else [] := h
      split at h
      · rw [List.mem_singleton] at h
        exact Or.inr (Or.inl ⟨‹_›, congrArg Prod.fst h⟩)
      · exact absurd h List.not_mem_nil
  | period odrReg interval =>
    have h : word ∈ periodWords interval (odrRegs odrReg) := h
    refine Or.inr (Or.inr (List.mem_append_left _ ?_))
    cases hregs : odrRegs odrReg with
    | none =>
      rw [hregs] at h
      exact absurd h List.not_mem_nil
    | some regs =>
      rw [hregs] at h
      apply List.mem_flatMap.mpr
      refine ⟨regs, (mem_odrTable hregs).1, ?_⟩
      simp only [periodWords, List.mem_cons, List.not_mem_nil, or_false] at h
      rcases h with rfl | rfl <;> simp
  | gyroSf div gyroLevel =>
    have h : word ∈ gyroSfWords (gyroSfOf pdev.gyroSFpll div) := h
    refine Or.inr (Or.inr (List.mem_append_right _ ?_))
    simp only [gyroSfWords, List.mem_cons, List.not_mem_nil, or_false] at h
    rcases h with rfl | rfl <;> simp

theorem assigns_mem {word : BitVec 16 × BitVec 16} (h : word ∈ call.assigns pdev) :
    word.1 ∈ dmpWords := by
  rcases assigns_cases h with ⟨-, hout⟩ | ⟨-, hintr⟩ | hrate
  · exact List.mem_append_left _ (List.mem_append_right _ hout)
  · exact List.mem_append_right _ (List.mem_singleton.mpr hintr)
  · exact List.mem_append_left _ (List.mem_append_left _ hrate)

end SetupCall

theorem two_le_sub {a reg : BitVec 16} (h : a ≠ reg) (h' : a ≠ reg + 1) :
    2 ≤ (a - reg).toNat := by
  by_contra hlt
  have hsum : a = reg + (a - reg) := by rw [BitVec.add_comm, BitVec.sub_add_cancel]
  have hcases : (a - reg).toNat = 0 ∨ (a - reg).toNat = 1 := by omega
  rcases hcases with hzero | hone
  · apply h
    rw [hsum, show a - reg = 0 from BitVec.eq_of_toNat_eq hzero]
    exact BitVec.add_zero reg
  · apply h'
    rw [hsum, show a - reg = 1 from BitVec.eq_of_toNat_eq hone]

/-! ## Runs -/

/-- The value that a step assigns to a word last. -/
def assignsTo (a : BitVec 16) (x : Step (Device × Port DmpMemory) SetupCalled) :
    Option (BitVec 16) :=
  (x.label.call.assigns x.post.1).reverse.lookup a

section
variable {w w' : Device × Port DmpMemory} {tr : List (Step (Device × Port DmpMemory) SetupCalled)}
  {x : SetupCalled}

theorem configures_of_run (hready : SetupReady w)
    (hwithin : ∀ x ∈ tr, x.label.call.WithinTable) (hrun : Run setupStep w tr w') :
    ∀ x ∈ tr, Configures x.pre x.label x.post := by
  have hinv := (hrun.invariant hready fun x hx hpre hstep =>
    (setupStep_spec hpre (hwithin x hx) hstep).ready).2
  intro x hx
  exact setupStep_spec (hinv x hx).1 (hwithin x hx) (hrun.step_mem x hx)

theorem Configures.wordAt_eq (h : Configures w x w') {a : BitVec 16} (ha : a ∈ dmpWords) :
    wordAt w'.2.mem a =
      ((x.call.assigns w'.1).reverse.lookup a).getD (wordAt w.2.mem a) := by
  rw [Imu.wordAt_eq, h.memory]
  apply flatWord_assigned
  intro word hword hne
  exact clear_dmpWords ha (SetupCall.assigns_mem hword) hne

theorem Configures.at_eq (h : Configures w x w') {b : BitVec 16}
    (hb : ∀ a ∈ dmpWords, b ≠ a ∧ b ≠ a + 1) : w'.2.mem.at b = w.2.mem.at b := by
  rw [h.memory]
  apply assigned_of_forall
  intro word hword
  obtain ⟨hne, hne'⟩ := hb word.1 (SetupCall.assigns_mem hword)
  exact two_le_sub hne hne'

/-- A call for the control words makes them those for the sensors it leaves enabled. -/
theorem Configures.controls_set (h : Configures w x w') (hsets : x.call.SetsOutputs) :
    controlsAt w'.2.mem = controlsFor w'.1.enabled := by
  obtain ⟨call, retval⟩ := x
  have hassigns : call.assigns w'.1 = outputWords w'.1.enabled := by
    cases call with
    | switch call =>
      cases call with
      | enable sensor state => exact if_pos hsets
      | enableInt sensor state => exact hsets.elim
    | period odrReg interval => exact hsets.elim
    | gyroSf div gyroLevel => exact hsets.elim
  have hword {a value : BitVec 16} (ha : a ∈ dmpWords)
      (hlookup : (outputWords w'.1.enabled).reverse.lookup a = some value) :
      wordAt w'.2.mem a = value := by
    rw [h.wordAt_eq ha, hassigns, hlookup, Option.getD_some]
  unfold controlsAt
  rw [hword (by simp [dmpWords, outputAddrs]) rfl, hword (by simp [dmpWords, outputAddrs]) rfl,
    hword (by simp [dmpWords, outputAddrs]) rfl, hword (by simp [dmpWords, outputAddrs]) rfl]

theorem Configures.interrupts_set (h : Configures w x w') (hsets : x.call.SetsInterrupts) :
    wordAt w'.2.mem dataIntrCtlAddr = controlWord w'.1.enabledIntr := by
  obtain ⟨call, retval⟩ := x
  have hassigns : call.assigns w'.1 = [(dataIntrCtlAddr, controlWord w'.1.enabledIntr)] := by
    cases call with
    | switch call =>
      cases call with
      | enable sensor state => exact hsets.elim
      | enableInt sensor state => exact if_pos hsets
    | period odrReg interval => exact hsets.elim
    | gyroSf div gyroLevel => exact hsets.elim
  rw [h.wordAt_eq (by simp [dmpWords, outputAddrs]), hassigns]
  rfl

/-- A word that the call does not assign is what it was. -/
theorem Configures.wordAt_kept (h : Configures w x w') {a : BitVec 16} (ha : a ∈ dmpWords)
    (hother : ∀ word ∈ x.call.assigns w'.1, a ≠ word.1) : wordAt w'.2.mem a = wordAt w.2.mem a := by
  have hnone : (x.call.assigns w'.1).reverse.lookup a = none := by
    apply List.lookup_eq_none_iff.mpr
    intro word hword
    exact bne_iff_ne.mpr (hother word (List.mem_reverse.mp hword))
  rw [h.wordAt_eq ha, hnone, Option.getD_none]

/-- The groups have no word in common. -/
theorem addrs_apart {a reg : BitVec 16} (hreg : reg ∈ rateAddrs) :
    (a ∈ outputAddrs → a ≠ reg) ∧ dataIntrCtlAddr ≠ reg := by
  have hall : rateAddrs.all (fun reg => outputAddrs.all (fun a => a ≠ reg) &&
      decide (dataIntrCtlAddr ≠ reg)) = true := by decide +kernel
  have hone := List.all_eq_true.mp hall reg hreg
  rw [Bool.and_eq_true] at hone
  refine ⟨fun ha => ?_, of_decide_eq_true hone.2⟩
  exact of_decide_eq_true (List.all_eq_true.mp hone.1 a ha)

theorem Configures.controls_kept (h : Configures w x w') (hother : ¬ x.call.SetsOutputs) :
    controlsAt w'.2.mem = controlsAt w.2.mem ∧ w'.1.enabled = w.1.enabled := by
  have hintr : outputAddrs.all (fun a => a ≠ dataIntrCtlAddr) = true := by decide
  have hkept {a : BitVec 16} (ha : a ∈ outputAddrs) :
      wordAt w'.2.mem a = wordAt w.2.mem a := by
    apply h.wordAt_kept (List.mem_append_left _ (List.mem_append_right _ ha))
    intro word hword
    rcases SetupCall.assigns_cases hword with ⟨hsets, -⟩ | ⟨-, hword⟩ | hrate
    · exact absurd hsets hother
    · rw [hword]
      exact of_decide_eq_true (List.all_eq_true.mp hintr a ha)
    · exact (addrs_apart hrate).1 ha
  constructor
  · unfold controlsAt
    rw [hkept (by simp [outputAddrs]), hkept (by simp [outputAddrs]),
      hkept (by simp [outputAddrs]), hkept (by simp [outputAddrs])]
  · rw [h.enabled]
    obtain ⟨call, retval⟩ := x
    cases call with
    | switch call =>
      cases call with
      | enable sensor state => exact if_neg hother
      | enableInt sensor state => rfl
    | period odrReg interval => rfl
    | gyroSf div gyroLevel => rfl

theorem Configures.interrupts_kept (h : Configures w x w') (hother : ¬ x.call.SetsInterrupts) :
    wordAt w'.2.mem dataIntrCtlAddr = wordAt w.2.mem dataIntrCtlAddr ∧
      w'.1.enabledIntr = w.1.enabledIntr := by
  have hout : outputAddrs.all (fun a => dataIntrCtlAddr ≠ a) = true := by decide
  constructor
  · apply h.wordAt_kept (List.mem_append_right _ List.mem_cons_self)
    intro word hword
    rcases SetupCall.assigns_cases hword with ⟨-, hword⟩ | ⟨hsets, -⟩ | hrate
    · exact of_decide_eq_true (List.all_eq_true.mp hout word.1 hword)
    · exact absurd hsets hother
    · exact (addrs_apart (a := word.1) hrate).2
  · rw [h.enabledIntr]
    obtain ⟨call, retval⟩ := x
    cases call with
    | switch call =>
      cases call with
      | enable sensor state => rfl
      | enableInt sensor state => exact if_neg hother
    | period odrReg interval => rfl
    | gyroSf div gyroLevel => rfl

theorem controls_of_run (hconf : ∀ x ∈ tr, Configures x.pre x.label x.post)
    (hrun : Run setupStep w tr w') (hsome : ∃ x ∈ tr, x.label.call.SetsOutputs) :
    controlsAt w'.2.mem = controlsFor w'.1.enabled := by
  let Agree : Device × Port DmpMemory → Prop := fun v => controlsAt v.2.mem = controlsFor v.1.enabled
  show Agree w'
  refine @Run.since _ _ _ (fun called => called.call.SetsOutputs) Agree _ _ _ hrun
    (fun x hx hsets => (hconf x hx).controls_set hsets) ?_ hsome
  intro x hx hother hpre
  obtain ⟨hcontrols, henabled⟩ := (hconf x hx).controls_kept hother
  exact (hcontrols.trans hpre).trans (congrArg controlsFor henabled.symm)

theorem interrupts_of_run (hconf : ∀ x ∈ tr, Configures x.pre x.label x.post)
    (hrun : Run setupStep w tr w') (hsome : ∃ x ∈ tr, x.label.call.SetsInterrupts) :
    wordAt w'.2.mem dataIntrCtlAddr = controlWord w'.1.enabledIntr := by
  let Agree : Device × Port DmpMemory → Prop :=
    fun v => wordAt v.2.mem dataIntrCtlAddr = controlWord v.1.enabledIntr
  show Agree w'
  refine @Run.since _ _ _ (fun called => called.call.SetsInterrupts) Agree _ _ _ hrun
    (fun x hx hsets => (hconf x hx).interrupts_set hsets) ?_ hsome
  intro x hx hother hpre
  obtain ⟨hword, henabled⟩ := (hconf x hx).interrupts_kept hother
  exact (hword.trans hpre).trans (congrArg controlWord henabled.symm)

theorem words_of_run (hconf : ∀ x ∈ tr, Configures x.pre x.label x.post)
    (hrun : Run setupStep w tr w') {a : BitVec 16} (ha : a ∈ dmpWords) :
    wordAt w'.2.mem a = lastSet (assignsTo a) tr (wordAt w.2.mem a) := by
  let word : Device × Port DmpMemory → BitVec 16 := fun v => wordAt v.2.mem a
  show word w' = lastSet (assignsTo a) tr (word w)
  exact hrun.lastSet fun x hx _ => (hconf x hx).wordAt_eq ha

theorem untouched_of_run (hconf : ∀ x ∈ tr, Configures x.pre x.label x.post)
    (hrun : Run setupStep w tr w') {b : BitVec 16} (hb : ∀ a ∈ dmpWords, b ≠ a ∧ b ≠ a + 1) :
    w'.2.mem.at b = w.2.mem.at b := by
  let Same : Device × Port DmpMemory → Prop := fun v => v.2.mem.at b = w.2.mem.at b
  show Same w'
  have hinit : Same w := rfl
  exact (hrun.invariant hinit fun x hx hpre _ => ((hconf x hx).at_eq hb).trans hpre).1

end

/-- A call on a chip on which nothing fails. -/
def setUp (call : SetupCall) (w : Device × Port DmpMemory) :
    Step (Device × Port DmpMemory) SetupCalled :=
  let out := Prog.run (memoryBacking.chip memoryAnswer) (call.run.run w.1) w.2
  ⟨w, ⟨call, out.1.1⟩, (out.1.2, out.2)⟩

theorem setupStep_setUp (call : SetupCall) (w : Device × Port DmpMemory) :
    setupStep w (setUp call w).label (setUp call w).post := by
  obtain ⟨hexec, hok⟩ := exec_chip read_memoryAnswer call.run w.1 w.2
  exact ⟨_, hexec, hok⟩

end SimuSound.Imu
