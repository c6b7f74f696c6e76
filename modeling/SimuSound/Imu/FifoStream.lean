import SimuSound.Imu.DmpFifo
import SimuSound.Reasoning.Inflow

/-!
# FifoStream — the FIFO behind its three registers

The sensor appends to the FIFO whenever it likes, also between the two reads that make up a count.
A failed access promises nothing about the FIFO afterwards.
-/

namespace SimuSound.Imu

open Reasoning

/-- `FIFO_COUNT` has thirteen bits. -/
def fifoCapacity : Nat := 8191

/-- A successful read with `q` in the FIFO.  The upper bits of `FIFO_COUNT_H` are reserved, and
nothing is known of a read of more bytes than there are. -/
def served (q : Inflow Byte) (reg : Byte) {len : Nat} (val : Bytes len) (q' : Inflow Byte) : Prop :=
  if reg = agb0RegFifoRW then
    len ≤ q.held.length → List.ofFn val = q.held.take len ∧ q' = q.pop len
  else
    q' = q ∧
    (reg = agb0RegFifoCountH → ∀ i, i.val = 0 →
      (val i &&& 0x1F).toNat = q.held.length / 256) ∧
    (reg = agb0RegFifoCountL → ∀ i, i.val = 0 → (val i).toNat = q.held.length % 256)

/-- The bus with the FIFO on it, which never overflows and is not reset. -/
def fifo : Env (Inflow Byte) BusEvent BusEvent.Resp
  | q, .read reg _, r, q' =>
    q.arrive.held.length ≤ fifoCapacity ∧ (r.retval = Status.ok → served q.arrive reg r.val q')
  | q, .write _ _, _, q' | q, .spiOpen _ _, _, q' =>
    q.arrive.held.length ≤ fifoCapacity ∧ q' = q.arrive
  | q, .uninit _, _, q' => q' = q

/-- A read of a sensor whose accesses all succeed. -/
def sensorRead (q : Inflow Byte) (reg : Byte) (len : Nat) : Read (Bytes len) × Inflow Byte :=
  if reg = agb0RegFifoRW then (⟨Status.ok, fun i => q.held.getD i.val 0⟩, q.pop len)
  else if reg = agb0RegFifoCountH then
    (⟨Status.ok, fun _ => BitVec.ofNat 8 (q.held.length / 256)⟩, q)
  else (⟨Status.ok, fun _ => BitVec.ofNat 8 (q.held.length % 256)⟩, q)

def sensor : Handler (Inflow Byte) BusEvent BusEvent.Resp
  | .read reg len, q => sensorRead q.arrive reg len
  | .write _ _, q => (Status.ok, q.arrive)
  | .uninit _, q => (fun _ => 0, q)
  | .spiOpen _ _, q => (0, q.arrive)

section
variable {q q' : Inflow Byte} {tr : BusTrace (Inflow Byte)}

theorem ofFn_getD {n : Nat} {l : List Byte} (h : n ≤ l.length) :
    List.ofFn (fun i : Fin n => l.getD i.val 0) = l.take n := by
  apply List.ext_getElem
  · rw [List.length_ofFn, List.length_take, Nat.min_eq_left h]
  · intro i hi _
    rw [List.length_ofFn] at hi
    rw [List.getElem_ofFn, List.getElem_take]
    rw [List.getD_eq_getElem?_getD, List.getElem?_eq_getElem (Nat.lt_of_lt_of_le hi h),
      Option.getD_some]

theorem toNat_countHigh {n : Nat} (h : n ≤ fifoCapacity) :
    (BitVec.ofNat 8 (n / 256) &&& 0x1F).toNat = n / 256 := by
  have hlt : n / 256 < 2 ^ 5 := by
    unfold fifoCapacity at h
    omega
  have hmask : (0x1F : Byte).toNat = 2 ^ 5 - 1 := rfl
  rw [BitVec.toNat_and, hmask, Nat.and_two_pow_sub_one_eq_mod, BitVec.toNat_ofNat]
  omega

theorem served_sensorRead (hcap : q.held.length ≤ fifoCapacity) (reg : Byte) (len : Nat) :
    served q reg (sensorRead q reg len).1.val (sensorRead q reg len).2 := by
  unfold served sensorRead
  by_cases hport : reg = agb0RegFifoRW
  · rw [if_pos hport, if_pos hport]
    exact fun hlen => ⟨ofFn_getD hlen, rfl⟩
  · rw [if_neg hport, if_neg hport]
    by_cases hhigh : reg = agb0RegFifoCountH
    · rw [if_pos hhigh]
      refine ⟨rfl, fun _ _ _ => toNat_countHigh hcap, fun hlow => ?_⟩
      exact absurd (hhigh.symm.trans hlow) (by decide)
    · rw [if_neg hhigh]
      refine ⟨rfl, fun h => absurd h hhigh, fun _ _ _ => ?_⟩
      rw [BitVec.toNat_ofNat, Nat.mod_mod]

theorem length_stream_sensorRead (q : Inflow Byte) (reg : Byte) (len : Nat) :
    (sensorRead q reg len).2.stream.length ≤ q.stream.length := by
  have hpop : (q.pop len).stream.length ≤ q.stream.length := by
    simp only [Inflow.stream, Inflow.pop, List.length_append, List.length_drop]
    omega
  unfold sensorRead
  split
  · exact hpop
  · split
    · exact Nat.le_refl _
    · exact Nat.le_refl _

theorem sensor_fifo {e : BusEvent} {r : e.Resp} (hcap : q.stream.length ≤ fifoCapacity)
    (h : sensor.env q e r q') : fifo q e r q' ∧ q'.stream.length ≤ fifoCapacity := by
  have harrive : q.arrive.stream.length ≤ fifoCapacity := by rwa [Inflow.stream_arrive]
  have hheld : q.arrive.held.length ≤ fifoCapacity := by
    rw [Inflow.stream, List.length_append] at harrive
    exact Nat.le_of_add_right_le harrive
  obtain ⟨rfl, rfl⟩ := Handler.answer_eq h
  cases e with
  | read reg len =>
    refine ⟨⟨hheld, fun _ => served_sensorRead hheld reg len⟩, ?_⟩
    exact (length_stream_sensorRead _ reg len).trans harrive
  | write reg data => exact ⟨⟨hheld, rfl⟩, harrive⟩
  | uninit len => exact ⟨rfl, hcap⟩
  | spiOpen csPin freq => exact ⟨⟨hheld, rfl⟩, harrive⟩

/-- What the sensor does, the FIFO may do. -/
theorem exec_sensor {α β : Type} (p : Io (α × β)) (hcap : q.stream.length ≤ fifoCapacity) :
    Prog.Exec fifo p q (p.trace sensor q) ((p.run sensor q).1.1, (p.run sensor q).1.2)
      (p.run sensor q).2 ∧ (p.run sensor q).2.stream.length ≤ fifoCapacity :=
  (Prog.exec_run_pair sensor p q).allowed (fun q => q.stream.length ≤ fifoCapacity)
    (fun _ _ _ _ h henv => sensor_fifo h henv) hcap

theorem good_sensor (e : BusEvent) (q : Inflow Byte) : Good e (sensor e q).1 := by
  cases e with
  | read reg len =>
    change (sensorRead q.arrive reg len).1.retval = Status.ok
    unfold sensorRead
    split
    · rfl
    · split
      · rfl
      · rfl
  | write reg data => rfl
  | uninit len => trivial
  | spiOpen csPin freq => trivial

/-! ## Accesses -/

/-- What a read through `ICM_20948_execute_r` found, if it succeeded. -/
theorem exec_fifoRead {reg : Byte} {len : Nat} {dest : Bytes len} {r : Read (Bytes len)}
    (hexec : Prog.Exec fifo (executeR reg dest) q tr r q') :
    (∃ answer, tr = [⟨q, .read reg len, answer⟩]) ∧
      q.arrive.held.length ≤ fifoCapacity ∧
      (r.retval = Status.ok → served q.arrive reg r.val q') := by
  obtain ⟨answer, q₁, t₁, t₂, rfl, hread, rfl, rfl, rfl⟩ :=
    (Prog.exec_bind _ _ _ _ _ _ _).mp hexec
  obtain ⟨⟨hcap, hserved⟩, rfl⟩ := (Prog.exec_perform _ _ _ _ _ _).mp hread
  refine ⟨⟨answer, rfl⟩, hcap, fun hret => ?_⟩
  simp only [if_pos hret]
  exact hserved hret

theorem exec_fifoByte {reg dest : Byte} (hreg : reg ≠ agb0RegFifoRW) {r : Read Byte}
    (hexec : Prog.Exec fifo (readByte reg dest) q tr r q') :
    (∃ answer, tr = [⟨q, .read reg 1, answer⟩]) ∧
      q.arrive.held.length ≤ fifoCapacity ∧
      (r.retval = Status.ok → q' = q.arrive ∧
        (reg = agb0RegFifoCountH → (r.val &&& 0x1F).toNat = q.arrive.held.length / 256) ∧
        (reg = agb0RegFifoCountL → r.val.toNat = q.arrive.held.length % 256)) := by
  obtain ⟨r₁, q₁, t₁, t₂, rfl, hread, rfl, rfl, rfl⟩ := (Prog.exec_bind _ _ _ _ _ _ _).mp hexec
  obtain ⟨htrace, hcap, hserved⟩ := exec_fifoRead hread
  refine ⟨by rwa [List.append_nil], hcap, fun hret => ?_⟩
  have hmoved := hserved hret
  rw [served, if_neg hreg] at hmoved
  obtain ⟨hq, hhigh, hlow⟩ := hmoved
  exact ⟨hq, fun h => hhigh h 0 rfl, fun h => hlow h 0 rfl⟩

/-- A local variable that is not initialised costs no access. -/
theorem exec_garbage {α : Type} {len : Nat} {k : Bytes len → Io α} {a : α}
    (hexec : Prog.Exec fifo (uninit len >>= k) q tr a q') :
    ∃ garbage t, tr = ⟨q, .uninit len, garbage⟩ :: t ∧ Prog.Exec fifo (k garbage) q t a q' := by
  obtain ⟨garbage, q₁, t₁, t₂, rfl, hgarbage, hrest⟩ := (Prog.exec_bind _ _ _ _ _ _ _).mp hexec
  obtain ⟨rfl, rfl⟩ := (Prog.exec_perform _ _ _ _ _ _).mp hgarbage
  exact ⟨garbage, t₂, rfl, hrest⟩

theorem exec_garbageByte {α : Type} {k : Byte → Io α} {a : α}
    (hexec : Prog.Exec fifo (uninitByte >>= k) q tr a q') :
    ∃ garbage t, tr = ⟨q, .uninit 1, garbage⟩ :: t ∧ Prog.Exec fifo (k (garbage 0)) q t a q' :=
  exec_garbage hexec

/-! ## Counting -/

theorem toNat_count {high low : Byte} {n m : Nat} (hhigh : (high &&& 0x1F).toNat = n / 256)
    (hlow : low.toNat = m % 256) :
    (((high &&& 0x1F) ++ low : BitVec 16)).toNat = n / 256 * 256 + m % 256 := by
  rw [BitVec.toNat_append, ← Nat.shiftLeft_add_eq_or_of_lt low.isLt, Nat.shiftLeft_eq, hhigh, hlow]

theorem exec_getFifoCount {count : BitVec 16} {r : Read (BitVec 16)}
    (hexec : Prog.Exec fifo (getFifoCount count) q tr r q') (hret : r.retval = Status.ok) :
    r.val.toNat = q.count 256 ∧ q' = q.arrive.arrive := by
  obtain ⟨garbageH, t₁, rfl, hcall⟩ := exec_garbageByte hexec
  obtain ⟨garbageL, t₂, rfl, hbank⟩ := exec_garbageByte hcall
  obtain ⟨retval, q₁, t₃, t₄, rfl, ⟨rfl, rfl, rfl⟩, hreads⟩ := exec_guard.mp hbank
  rw [if_pos rfl] at hreads
  obtain ⟨high, q₂, t₅, t₆, rfl, hhigh, hafter⟩ := exec_guardRead.mp hreads
  by_cases hokH : high.retval = Status.ok
  · rw [if_pos hokH] at hafter
    obtain ⟨rfl, hcountH, -⟩ := (exec_fifoByte (by decide) hhigh).2.2 hokH
    obtain ⟨low, q₃, t₇, t₈, rfl, hlow, hlast⟩ := exec_guardRead.mp hafter
    by_cases hokL : low.retval = Status.ok
    · rw [if_pos hokL] at hlast
      obtain ⟨rfl, -, hcountL⟩ := (exec_fifoByte (by decide) hlow).2.2 hokL
      obtain ⟨rfl, rfl, rfl⟩ := hlast
      exact ⟨toNat_count (hcountH rfl) (hcountL rfl), rfl⟩
    · rw [if_neg hokL] at hlast
      obtain ⟨rfl, rfl, rfl⟩ := hlast
      exact absurd hret hokL
  · rw [if_neg hokH] at hafter
    obtain ⟨rfl, rfl, rfl⟩ := hafter
    exact absurd hret hokH

theorem succeeds_getFifoCount (count : BitVec 16) :
    (getFifoCount count).Succeeds Good (fun r => r.retval = Status.ok) :=
  succeeds_garbage fun _ => succeeds_garbage fun _ =>
    succeeds_guardRead (succeeds_readByte agb0RegFifoCountH _) fun _ _ =>
      succeeds_guardRead (succeeds_readByte agb0RegFifoCountL _) fun _ hlow => hlow

theorem uses_getFifoCount {P : BusEvent → Prop} (count : BitVec 16)
    (huninit : ∀ len, P (.uninit len)) (hhigh : P (.read agb0RegFifoCountH 1))
    (hlow : P (.read agb0RegFifoCountL 1)) : (getFifoCount count).Uses P := by
  have hgarbage : uninitByte.Uses P := ⟨huninit 1, fun _ => trivial⟩
  refine hgarbage.bind fun _ => hgarbage.bind fun _ => uses_guard trivial fun _ => ?_
  refine uses_guardRead ⟨hhigh, fun _ => trivial⟩ fun _ => ?_
  exact uses_guardRead ⟨hlow, fun _ => trivial⟩ fun _ => trivial

/-- The check in front of a part. -/
theorem exec_recount {len : Nat} {count : BitVec 16} {r : Read (BitVec 16)}
    (hexec : Prog.Exec fifo (if count.toNat < len then getFifoCount count
      else pure ⟨Status.ok, count⟩) q tr r q') (hret : r.retval = Status.ok) :
    (r.val.toNat, q') = q.ready 256 count.toNat len := by
  unfold Inflow.ready
  split at hexec
  · next hshort =>
    obtain ⟨hcount, hq⟩ := exec_getFifoCount hexec hret
    rw [if_pos hshort, hcount, hq]
  · next henough =>
    obtain ⟨-, rfl, rfl⟩ := hexec
    rw [if_neg henough]

theorem succeeds_recount (len : Nat) (count : BitVec 16) :
    (if count.toNat < len then getFifoCount count else pure ⟨Status.ok, count⟩ : Io _).Succeeds
      Good (fun r => r.retval = Status.ok) := by
  split
  · exact succeeds_getFifoCount count
  · rfl

/-! ## Taking a part -/

section
variable {part : Part} {d : Decoder} {r : Read Decoder}

/-- When the FIFO holds the part, its bytes are next in the stream. -/
theorem exec_takePart (hexec : Prog.Exec fifo (takePart part d) q tr r q') :
    (∃ answer, tr = [⟨q, .read agb0RegFifoRW part.len, answer⟩]) ∧
      (r.retval = Status.ok → part.len ≤ q.arrive.held.length →
        r.val.fifoCount = d.fifoCount - BitVec.ofNat 16 part.len ∧
        q' = q.arrive.pop part.len ∧
        ∃ bytes, List.ofFn bytes = q.stream.take part.len ∧
          r.val.data = part.store bytes d.data) := by
  obtain ⟨taken, q₁, t₁, t₂, rfl, hread, hlast⟩ := exec_guardRead.mp hexec
  obtain ⟨retval, q₂, t₃, t₄, rfl, ⟨rfl, rfl, rfl⟩, hbank⟩ := exec_guard.mp hread
  rw [if_pos rfl] at hbank
  obtain ⟨htrace, -, hserved⟩ := exec_fifoRead hbank
  by_cases hok : taken.retval = Status.ok
  · rw [if_pos hok] at hlast
    obtain ⟨rfl, rfl, rfl⟩ := hlast
    refine ⟨by rwa [List.append_nil], fun _ hlen => ?_⟩
    have hmoved := hserved hok
    rw [served, if_pos rfl] at hmoved
    obtain ⟨hbytes, hq⟩ := hmoved hlen
    rw [Inflow.take_held hlen, Inflow.stream_arrive] at hbytes
    exact ⟨rfl, hq, taken.val, hbytes, rfl⟩
  · rw [if_neg hok] at hlast
    obtain ⟨rfl, rfl, rfl⟩ := hlast
    exact ⟨by rwa [List.append_nil], fun hret => absurd hret hok⟩

theorem succeeds_takePart (part : Part) (d : Decoder) :
    (takePart part d).Succeeds Good (fun r => r.retval = Status.ok) :=
  succeeds_guardRead (fun _ hgood => hgood) fun _ hread => hread

theorem readPart_eq (part : Part) (d : Decoder) :
    readPart part d =
      (if d.fifoCount.toNat < part.len then getFifoCount d.fifoCount
        else pure ⟨Status.ok, d.fifoCount⟩) >>= fun counted =>
      if counted.retval ≠ Status.ok then
        pure ⟨counted.retval, { d with fifoCount := counted.val }⟩
      else if counted.val.toNat < part.len then
        pure ⟨Status.fifoIncompleteData, { d with fifoCount := counted.val }⟩
      else takePart part { d with fifoCount := counted.val } := by
  unfold readPart
  split
  · rfl
  · rfl

theorem exec_readPart_steps (hexec : Prog.Exec fifo (readPart part d) q tr r q') :
    ∃ counted q₁ t₁ t₂, tr = t₁ ++ t₂ ∧
      Prog.Exec fifo (if d.fifoCount.toNat < part.len then getFifoCount d.fifoCount
        else pure ⟨Status.ok, d.fifoCount⟩) q t₁ counted q₁ ∧
      if counted.retval = Status.ok then
        if counted.val.toNat < part.len then
          t₂ = [] ∧ r = ⟨Status.fifoIncompleteData, { d with fifoCount := counted.val }⟩ ∧ q' = q₁
        else Prog.Exec fifo (takePart part { d with fifoCount := counted.val }) q₁ t₂ r q'
      else t₂ = [] ∧ r = ⟨counted.retval, { d with fifoCount := counted.val }⟩ ∧ q' = q₁ := by
  rw [readPart_eq] at hexec
  obtain ⟨counted, q₁, t₁, t₂, rfl, hcount, hrest⟩ := exec_guardRead.mp hexec
  rw [Prog.exec_return_if] at hrest
  exact ⟨counted, q₁, t₁, t₂, rfl, hcount, hrest⟩

theorem toNat_decrement {count : BitVec 16} {len : Nat} (h : len ≤ count.toNat) :
    (count - BitVec.ofNat 16 len).toNat = count.toNat - len := by
  have hlt : len < 2 ^ 16 := Nat.lt_of_le_of_lt h count.isLt
  have hlen : (BitVec.ofNat 16 len).toNat = len := by
    rw [BitVec.toNat_ofNat, Nat.mod_eq_of_lt hlt]
  rw [BitVec.toNat_sub_of_le (by rwa [BitVec.le_def, hlen]), hlen]

/-- Without failures a part is taken exactly when the count to go by covers it. -/
theorem exec_readPart (hexec : Prog.Exec fifo (readPart part d) q tr r q') (hok : AllOk tr)
    (hcovered : d.fifoCount.toNat ≤ q.held.length) {count : Nat} {q₁ : Inflow Byte}
    (hready : q.ready 256 d.fifoCount.toNat part.len = (count, q₁)) :
    (count < part.len → r.retval = Status.fifoIncompleteData ∧ q' = q₁) ∧
      (part.len ≤ count → r.retval = Status.ok ∧ q' = q₁.arrive.pop part.len ∧
        r.val.fifoCount.toNat = count - part.len ∧
        ∃ bytes, List.ofFn bytes = q.stream.take part.len ∧
          r.val.data = part.store bytes d.data) := by
  obtain ⟨counted, q₂, t₁, t₂, rfl, hcount, hrest⟩ := exec_readPart_steps hexec
  obtain ⟨hok₁, hok₂⟩ := allOk_append t₁ t₂ |>.mp hok
  have hret := (succeeds_recount part.len d.fifoCount).exec hcount hok₁
  obtain ⟨rfl, rfl⟩ := Prod.mk.inj ((exec_recount hcount hret).trans hready)
  rw [if_pos hret] at hrest
  refine ⟨fun hshort => ?_, fun henough => ?_⟩
  · rw [if_pos hshort] at hrest
    obtain ⟨-, rfl, rfl⟩ := hrest
    exact ⟨rfl, rfl⟩
  · rw [if_neg (Nat.not_lt.mpr henough)] at hrest
    have htaken := (succeeds_takePart _ _).exec hrest hok₂
    have hheld : counted.val.toNat ≤ q₂.held.length := by
      have hle := Inflow.ready_le 256 part.len hcovered
      rwa [hready] at hle
    have harrived : part.len ≤ q₂.arrive.held.length :=
      henough.trans (hheld.trans q₂.length_le_arrive)
    obtain ⟨hleft, hq, bytes, hbytes, hdata⟩ := (exec_takePart hrest).2 htaken harrived
    have hstream : q₂.stream = q.stream := by
      have hsame := Inflow.stream_ready 256 d.fifoCount.toNat part.len (q := q)
      rwa [hready] at hsame
    rw [hstream] at hbytes
    refine ⟨htaken, hq, ?_, bytes, hbytes, hdata⟩
    rw [hleft]
    exact toNat_decrement henough

end

/-- The decoder once `header2` is cleared. -/
def Decoder.clearHeader2 (d : Decoder) : Decoder := { d with data := { d.data with header2 := 0 } }

theorem readHeader2_eq (d : Decoder) :
    readHeader2 d = if anyBit d.data.header header2Bitmap then readPart header2Part d.clearHeader2
      else pure ⟨Status.ok, d.clearHeader2⟩ := rfl

/-! ## A call -/

/-- `icm_20948_DMP_data_t data = {0}` -/
def DmpData.zero : DmpData where
  header := 0
  header2 := 0
  rawAccel := 0
  rawGyro := 0
  compass := 0
  als := 0
  quat6 := 0
  quat9 := 0
  pQuat6 := 0
  geomag := 0
  pressure := 0
  compassCalibr := 0
  pedometerTimestamp := 0
  accelAccuracy := 0
  gyroAccuracy := 0
  compassAccuracy := 0
  pickup := 0
  activityRecognition := 0
  secondaryOnOff := 0
  footer := 0

/-- `inv_icm20948_read_dmp_data` past the check of the firmware, which is all that it wants of the
device structure. -/
def readAvailable (data : DmpData) (fifoBytes : Bytes dmpMaximumBytes) : Io (Read DmpData) := do
  let count ← uninit 2
  let counted ← getFifoCount (shortOf count)
  if counted.retval ≠ Status.ok then return ⟨counted.retval, data⟩
  if counted.val.toNat < headerPart.len then return ⟨Status.fifoNoDataAvail, data⟩
  readFrame ⟨counted.val, fifoBytes, data⟩

theorem run_readDmpData (data : DmpData) (pdev : Device) :
    (readDmpData data).run pdev =
      (uninit dmpMaximumBytes >>= fun fifoBytes =>
        if pdev.dmpFirmwareAvailable = false then pure ⟨Status.dmpNotSupported, data⟩
        else readAvailable data fifoBytes) >>= fun out => pure (out, pdev) := by
  unfold readDmpData readAvailable
  simp only [StateT.run_bind, StateT.run_monadLift, bind_assoc, pure_bind, StateT.run_get]
  refine bind_congr fun fifoBytes => ?_
  split
  · rw [pure_bind, StateT.run_pure]
  · simp only [StateT.run_bind, StateT.run_monadLift, bind_assoc, pure_bind]
    refine bind_congr fun count => bind_congr fun counted => ?_
    split
    · rw [pure_bind, StateT.run_pure]
    · split
      · rw [pure_bind, StateT.run_pure]
      · rw [StateT.run_monadLift]
        rfl

section
variable {data : DmpData} {pdev pdev' : Device} {out : Read DmpData}

theorem exec_readDmpData
    (hexec : Prog.Exec fifo ((readDmpData data).run pdev) q tr (out, pdev') q') :
    pdev' = pdev ∧ ∃ fifoBytes t, tr = ⟨q, .uninit dmpMaximumBytes, fifoBytes⟩ :: t ∧
      if pdev.dmpFirmwareAvailable = false then
        t = [] ∧ out = ⟨Status.dmpNotSupported, data⟩ ∧ q' = q
      else Prog.Exec fifo (readAvailable data fifoBytes) q t out q' := by
  rw [run_readDmpData] at hexec
  obtain ⟨out', q₁, t₁, t₂, rfl, hcall, rfl, hout, rfl⟩ := (Prog.exec_bind _ _ _ _ _ _ _).mp hexec
  obtain ⟨rfl, rfl⟩ := Prod.mk.inj hout
  obtain ⟨fifoBytes, t, rfl, hrest⟩ := exec_garbage hcall
  exact ⟨rfl, fifoBytes, t, List.append_nil _, Prog.exec_return_if.mp hrest⟩

theorem exec_readAvailable {fifoBytes : Bytes dmpMaximumBytes}
    (hexec : Prog.Exec fifo (readAvailable data fifoBytes) q tr out q') :
    ∃ garbage counted q₁ t₁ t₂, tr = ⟨q, .uninit 2, garbage⟩ :: (t₁ ++ t₂) ∧
      Prog.Exec fifo (getFifoCount (shortOf garbage)) q t₁ counted q₁ ∧
      if counted.retval = Status.ok then
        if counted.val.toNat < headerPart.len then
          t₂ = [] ∧ out = ⟨Status.fifoNoDataAvail, data⟩ ∧ q' = q₁
        else Prog.Exec fifo (readFrame ⟨counted.val, fifoBytes, data⟩) q₁ t₂ out q'
      else t₂ = [] ∧ out = ⟨counted.retval, data⟩ ∧ q' = q₁ := by
  obtain ⟨garbage, t, rfl, hcall⟩ := exec_garbage hexec
  obtain ⟨counted, q₁, t₁, t₂, rfl, hcount, hrest⟩ := exec_guardRead.mp hcall
  rw [Prog.exec_return_if] at hrest
  exact ⟨garbage, counted, q₁, t₁, t₂, rfl, hcount, hrest⟩

end

end

end SimuSound.Imu
