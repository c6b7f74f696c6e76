import Mathlib.Data.List.TakeWhile
import SimuSound.Imu.DmpFields
import SimuSound.Imu.Object

/-!
# Polling — the frames that `imu_test` gets to see

`loop` asks for one frame at a time and looks only at `status`.  The DMP appends frames whenever it
likes, also between the two reads of `FIFO_COUNT`.
-/

namespace SimuSound.Imu

open Reasoning

/-- One call of `loop`: what it prints of `Quat9`, before it is scaled, and whether it sleeps.
`data` is the structure on its stack, which nothing has set. -/
def loop (data : DmpData) : Method (Option Field.quat9.Member × Bool) := do
  let r ← Icm20948.readDmpDataFromFifo data
  let status := (← get).status
  let printed :=
    if status = Status.ok ∨ status = Status.fifoMoreDataAvail then
      if anyBit r.val.header 0x0400 then some (Field.quat9.member r.val) else none
    else none
  return (printed, decide (status ≠ Status.fifoMoreDataAvail))

/-- What `loop` makes of what the driver returns. -/
def printedOf (out : Read DmpData) : Option Field.quat9.Member :=
  if out.retval = Status.ok ∨ out.retval = Status.fifoMoreDataAvail then
    if anyBit out.val.header 0x0400 then some (Field.quat9.member out.val) else none
  else none

theorem run_loop (data : DmpData) {icm : Icm20948}
    (havail : icm.device.dmpFirmwareAvailable = true) :
    (loop data).run icm = (readDmpData data).run icm.device >>= fun r =>
      pure ((printedOf r.1, decide (r.1.retval ≠ Status.fifoMoreDataAvail)),
        { icm with device := r.2, status := r.1.retval }) := by
  have hread : (Icm20948.readDmpDataFromFifo data).run icm =
      (readDmpData data).run icm.device >>= fun r =>
        pure (r.1, { icm with device := r.2, status := r.1.retval }) := by
    unfold Icm20948.readDmpDataFromFifo Icm20948.ifDmpRead Icm20948.ifDmpElse
    rw [StateT.run_bind, StateT.run_get, pure_bind, if_pos havail, StateT.run_bind]
    show (Icm20948.onDevice (readDmpData data)) icm >>= _ = _
    rw [Icm20948.onDevice, bind_assoc]
    rfl
  unfold loop
  rw [StateT.run_bind, hread, bind_assoc]
  rfl

/-! ## What the sensor sends -/

/-- What the DMP sends in one frame. -/
structure Sample where
  values : Values
  header : BitVec 16
  header2 : BitVec 16
  footer : BitVec 16
  absent : anyBit header header2Bitmap = false → header2 = 0

namespace Sample

def frame (sample : Sample) : Frame :=
  sample.values.frame sample.header sample.header2 sample.footer sample.absent

/-- The quaternion, if the header announces one. -/
def quat9 (sample : Sample) : Option Field.quat9.Member :=
  if Field.quat9.sent sample.frame then some (sample.values .quat9) else none

end Sample

/-- The samples in the FIFO. -/
def sampleStream (samples : List Sample) : List Byte := stream (samples.map Sample.frame)

theorem sampleStream_cons (sample : Sample) (rest : List Sample) :
    sampleStream (sample :: rest) = sample.frame.encode ++ sampleStream rest := List.flatMap_cons

theorem sampleStream_append (read waiting : List Sample) :
    sampleStream (read ++ waiting) = sampleStream read ++ sampleStream waiting := by
  unfold sampleStream stream
  rw [List.map_append, List.flatMap_append]

/-- Whatever was on the stack, the quaternion of a frame that was taken is printed. -/
theorem printedOf_fill (sample : Sample) (data : DmpData) {retval : Status}
    (hret : retval = Status.ok ∨ retval = Status.fifoMoreDataAvail) :
    printedOf ⟨retval, sample.frame.fill data⟩ = sample.quat9 := by
  have hheader : (sample.frame.fill data).header = sample.frame.header :=
    (sample.frame.fill_heads data).1
  have hbit : anyBit sample.frame.header 0x0400 = Field.quat9.sent sample.frame := rfl
  unfold printedOf Sample.quat9
  rw [if_pos hret, hheader, hbit]
  by_cases hsent : Field.quat9.sent sample.frame = true
  · have hmember : Field.quat9.member (sample.frame.fill data) = sample.values .quat9 := by
      rw [Sample.frame, member_fill sample.values hsent]
      exact Field.member_store (by decide) _ _
    rw [if_pos hsent, if_pos hsent, hmember]
  · rw [if_neg hsent, if_neg hsent]

/-! ## One turn -/

/-- A call of `loop`: what was on the stack, what it printed and whether it slept. -/
structure LoopCall where
  data : DmpData
  printed : Option Field.quat9.Member
  sleeps : Bool

/-- A call without bus failures. -/
def LoopStep (s : Icm20948 × Inflow Byte) (turn : LoopCall) (s' : Icm20948 × Inflow Byte) : Prop :=
  ∃ tr, Prog.Exec fifo ((loop turn.data).run s.1) s.2 tr ((turn.printed, turn.sleeps), s'.1) s'.2 ∧
    AllOk tr

/-- A turn on a FIFO whose stream consists of `samples`. -/
inductive LoopOutcome (samples : List Sample) (q : Inflow Byte) (turn : LoopCall) (status : Status)
    (q' : Inflow Byte) : Prop
  | idle (hcount : q.count 256 < 2) (hstatus : status = Status.fifoNoDataAvail)
      (hprinted : turn.printed = none) (hrest : q' = q.arrive.arrive)
  | took (sample : Sample) (rest : List Sample) (hsamples : samples = sample :: rest)
      (hstatus : status = Status.ok ∨ status = Status.fifoMoreDataAvail)
      (hprinted : turn.printed = sample.quat9) (hstream : q'.stream = sampleStream rest)
      (hdrain : q' = (q.arrive.arrive.drain 256 (q.count 256) sample.frame.lens).2)
  | gaveUp (sample : Sample) (rest : List Sample) (hsamples : samples = sample :: rest)
      (hstatus : status = Status.fifoIncompleteData) (hcount : 2 ≤ q.count 256)
      (hdrain : q.arrive.arrive.drain 256 (q.count 256) sample.frame.lens = (none, q'))

section
variable {s s' : Icm20948 × Inflow Byte} {turn : LoopCall}

/-- A turn is a call of the driver. -/
theorem LoopStep.call (hstep : LoopStep s turn s')
    (havail : s.1.device.dmpFirmwareAvailable = true) :
    ∃ out tr, Prog.Exec fifo ((readDmpData turn.data).run s.1.device) s.2 tr
        (out, s'.1.device) s'.2 ∧ AllOk tr ∧
      s'.1.status = out.retval ∧ turn.printed = printedOf out := by
  obtain ⟨tr, hexec, hok⟩ := hstep
  rw [run_loop turn.data havail] at hexec
  obtain ⟨out, q₁, t₁, t₂, rfl, hcall, rfl, hout, rfl⟩ := (Prog.exec_bind _ _ _ _ _ _ _).mp hexec
  obtain ⟨hturn, hicm⟩ := Prod.mk.inj hout
  obtain ⟨hprinted, -⟩ := Prod.mk.inj hturn
  rw [List.append_nil] at hok
  rw [hicm]
  exact ⟨out.1, t₁, hcall, hok, rfl, hprinted⟩

/-- The spec of `loop`. -/
theorem LoopStep.outcome {samples : List Sample} (hstep : LoopStep s turn s')
    (havail : s.1.device.dmpFirmwareAvailable = true)
    (hstream : s.2.stream = sampleStream samples) :
    s'.1.device = s.1.device ∧ LoopOutcome samples s.2 turn s'.1.status s'.2 := by
  obtain ⟨out, tr, hexec, hok, hstatus, hprinted⟩ := hstep.call havail
  have hidle : ∀ {out : Read DmpData}, out = ⟨Status.fifoNoDataAvail, turn.data⟩ →
      out.retval = Status.fifoNoDataAvail ∧ printedOf out = none := by
    rintro out rfl
    exact ⟨rfl, rfl⟩
  cases samples with
  | nil =>
    obtain ⟨hdevice, hcall⟩ := exec_call_counted hexec hok havail
    refine ⟨hdevice, ?_⟩
    have hempty : s.2.arrive.arrive.held.length = 0 := by
      have hlength := congrArg List.length hstream
      rw [← s.2.stream_arrive, ← s.2.arrive.stream_arrive, Inflow.stream,
        List.length_append] at hlength
      exact Nat.eq_zero_of_add_eq_zero_right hlength
    have hcount : s.2.count 256 < 2 := by
      have hle := Inflow.count_le 256 (q := s.2)
      omega
    rw [if_pos hcount] at hcall
    obtain ⟨hret, hnone⟩ := hidle hcall.1
    exact .idle hcount (hstatus.trans hret) (hprinted.trans hnone) hcall.2
  | cons sample rest =>
    rw [sampleStream_cons] at hstream
    obtain ⟨hdevice, hcall⟩ := exec_call_whole hexec hok havail hstream
    refine ⟨hdevice, ?_⟩
    cases hcall with
    | noData hcount hout hrest =>
      obtain ⟨hret, hnone⟩ := hidle hout
      exact .idle hcount (hstatus.trans hret) (hprinted.trans hnone) hrest
    | incomplete hcount hdrain hret =>
      exact .gaveUp sample rest rfl (hstatus.trans hret) hcount hdrain
    | complete left hcount hdrain hout =>
      have hret : out.retval = Status.ok ∨ out.retval = Status.fifoMoreDataAvail := by
        rw [hout]
        show (if left > 0 then _ else _) = _ ∨ (if left > 0 then _ else _) = _
        split
        · exact Or.inr rfl
        · exact Or.inl rfl
      have hvalue : out = ⟨out.retval, sample.frame.fill turn.data⟩ := by rw [hout]
      have htaken := (Inflow.drain_taken (Inflow.count_le 256) hdrain).1
      rw [Frame.sum_lens, Inflow.stream_arrive, Inflow.stream_arrive, hstream,
        List.drop_left] at htaken
      apply LoopOutcome.took sample rest rfl
      · rwa [hstatus]
      · rw [hprinted, hvalue]
        exact printedOf_fill sample turn.data hret
      · exact htaken
      · rw [hdrain]

end

/-! ## Any number of turns -/

/-- The first of the samples have been read, in order and each of them once, and the rest are still
to be read. -/
structure Delivered (samples : List Sample) (turns : List (Step (Icm20948 × Inflow Byte) LoopCall))
    (q : Inflow Byte) (read waiting : List Sample) : Prop where
  samples : samples = read ++ waiting
  printed : turns.filterMap (fun x => x.label.printed) = read.filterMap Sample.quat9
  stream : q.stream = sampleStream waiting

/-- Turns that do not end with `FIFOIncompleteData`. -/
theorem delivered_of_complete {samples : List Sample} {s s' : Icm20948 × Inflow Byte}
    {turns : List (Step (Icm20948 × Inflow Byte) LoopCall)}
    (havail : s.1.device.dmpFirmwareAvailable = true)
    (hstream : s.2.stream = sampleStream samples) (hrun : Run LoopStep s turns s')
    (hcomplete : ∀ x ∈ turns, x.post.1.status ≠ Status.fifoIncompleteData) :
    ∃ read waiting, Delivered samples turns s'.2 read waiting := by
  induction turns generalizing s samples with
  | nil =>
    rw [run_nil] at hrun
    exact ⟨[], samples, rfl, rfl, by rw [hrun, hstream]⟩
  | cons x turns ih =>
    obtain ⟨rfl, hstep, hrun⟩ := hrun
    obtain ⟨hdevice, hout⟩ := hstep.outcome havail hstream
    have hnext : x.post.1.device.dmpFirmwareAvailable = true := by rw [hdevice, havail]
    have hlater : ∀ y ∈ turns, y.post.1.status ≠ Status.fifoIncompleteData :=
      fun y hy => hcomplete y (List.mem_cons_of_mem x hy)
    cases hout with
    | idle _ _ hprinted hrest =>
      have hsame : x.post.2.stream = sampleStream samples := by
        rw [hrest, Inflow.stream_arrive, Inflow.stream_arrive, hstream]
      obtain ⟨read, waiting, h⟩ := ih hnext hsame hrun hlater
      refine ⟨read, waiting, h.samples, ?_, h.stream⟩
      rw [List.filterMap_cons, hprinted]
      exact h.printed
    | took sample rest hsamples _ hprinted hrest =>
      obtain ⟨read, waiting, h⟩ := ih hnext hrest hrun hlater
      refine ⟨sample :: read, waiting, by rw [hsamples, h.samples]; rfl, ?_, h.stream⟩
      rw [List.filterMap_cons, List.filterMap_cons, hprinted, h.printed]
    | gaveUp _ _ _ hstatus => exact absurd hstatus (hcomplete x List.mem_cons_self)

/-- A turn that does not find part of a frame. -/
def Complete (x : Step (Icm20948 × Inflow Byte) LoopCall) : Bool :=
  decide (x.post.1.status ≠ Status.fifoIncompleteData)

/-- Bytes of later frames, from the first of them on. -/
def Whole (samples : List Sample) (l : List Byte) : Prop :=
  ∃ later, later <:+ samples ∧ l = sampleStream later

section
variable {samples waiting : List Sample} {q : Inflow Byte}

/-- The FIFO holds the next frame as soon as it holds anything. -/
theorem held_whole (hsuffix : waiting <:+ samples) (hstream : q.stream = sampleStream waiting)
    (hcomes : Whole samples q.coming) :
    q.held = [] ∨ ∃ sample rest, waiting = sample :: rest ∧
      sample.frame.encode.length ≤ q.held.length := by
  obtain ⟨later, hlater, hcoming⟩ := hcomes
  have hlength := congrArg List.length hstream
  rw [Inflow.stream, List.length_append, hcoming] at hlength
  rcases List.suffix_or_suffix_of_suffix hlater hsuffix with h | h
  · cases waiting with
    | nil =>
      rw [List.suffix_nil.mp h] at hlength
      exact Or.inl (List.length_eq_zero_iff.mp (by omega))
    | cons sample rest =>
      rcases List.suffix_cons_iff.mp h with rfl | ⟨pad, rfl⟩
      · exact Or.inl (List.length_eq_zero_iff.mp (by omega))
      · refine Or.inr ⟨sample, _, rfl, ?_⟩
        rw [sampleStream_cons, sampleStream_append, List.length_append,
          List.length_append] at hlength
        omega
  · obtain ⟨pad, rfl⟩ := h
    rw [sampleStream_append, List.length_append] at hlength
    exact Or.inl (List.length_eq_zero_iff.mp (by omega))

/-- The object can use the DMP, and the sensor appends whole frames. -/
structure WholeFrames (samples : List Sample) (s : Icm20948 × Inflow Byte) : Prop where
  available : s.1.device.dmpFirmwareAvailable = true
  waiting : ∃ waiting, waiting <:+ samples ∧ s.2.stream = sampleStream waiting
  comes : s.2.ComesAs (Whole samples)

variable {s s' : Icm20948 × Inflow Byte} {turn : LoopCall}

/-- A reader that keeps the FIFO below the first upper digit of its count never gives up, and finds
nothing only when there is nothing. -/
theorem WholeFrames.step (h : WholeFrames samples s) (hstep : LoopStep s turn s')
    (hbelow : s.2.offered s'.2 < 256) :
    WholeFrames samples s' ∧ s'.1.status ≠ Status.fifoIncompleteData ∧
      (s'.1.status = Status.fifoNoDataAvail → s'.2.held = []) := by
  obtain ⟨waiting, hsuffix, hstream⟩ := h.waiting
  obtain ⟨hdevice, hout⟩ := hstep.outcome h.available hstream
  have havail : s'.1.device.dmpFirmwareAvailable = true := by rw [hdevice, h.available]
  have hcomes : s.2.arrive.arrive.ComesAs (Whole samples) := h.comes.arrive.arrive
  have hcounted : s.2.arrive.arrive.stream = sampleStream waiting := by
    rw [Inflow.stream_arrive, Inflow.stream_arrive, hstream]
  have hfirst := held_whole hsuffix hcounted hcomes.now
  cases hout with
  | idle hcount hstatus _ hrest =>
    rw [← hrest] at hcomes hcounted hfirst
    refine ⟨⟨havail, ⟨waiting, hsuffix, hcounted⟩, hcomes⟩, by rw [hstatus]; decide, fun _ => ?_⟩
    have hheld : s.2.arrive.arrive.held.length < 256 := by
      have hlength := s.2.length_arrive
      have hlength' := s.2.arrive.length_arrive
      have hcoming := s.2.arrive.length_coming_arrive
      have hcoming' := s.2.length_coming_arrive
      rw [hrest] at hbelow
      unfold Inflow.offered at hbelow
      omega
    rw [Inflow.count_of_below hheld, ← hrest] at hcount
    rcases hfirst with hempty | ⟨sample, rest, -, hlen⟩
    · exact hempty
    · have hlength := sample.frame.length_encode_ge
      omega
  | took sample rest hsamples hstatus _ hrest hdrain =>
    refine ⟨⟨havail, ⟨rest, ?_, hrest⟩, ?_⟩, ?_, ?_⟩
    · exact (List.suffix_cons sample rest).trans (hsamples ▸ hsuffix)
    · rw [hdrain]
      exact hcomes.drain _ _ _
    · rcases hstatus with hret | hret
      · rw [hret]
        decide
      · rw [hret]
        decide
    · intro hnone
      rcases hstatus with hret | hret
      · exact absurd (hret.symm.trans hnone) (by decide)
      · exact absurd (hret.symm.trans hnone) (by decide)
  | gaveUp sample rest hsamples _ hcount hdrain =>
    -- the header was there, so the frame was, and every count of it was exact
    have hsome : ¬ s.2.arrive.arrive.held = [] := by
      intro hempty
      have hle := Inflow.count_le 256 (q := s.2)
      rw [hempty, List.length_nil] at hle
      omega
    obtain ⟨sample', rest', hsame, hlen⟩ := hfirst.resolve_left hsome
    obtain ⟨rfl, rfl⟩ := List.cons.inj (hsamples.symm.trans hsame)
    rw [← Frame.sum_lens] at hlen
    have hlater := s.2.arrive.arrive.length_coming_drain 256 (s.2.count 256) sample.frame.lens
    rw [hdrain] at hlater
    have hoffered : s.2.arrive.arrive.offered s'.2 < 256 := by
      rw [Inflow.offered_arrive hlater,
        Inflow.offered_arrive (Nat.le_trans hlater Inflow.length_coming_arrive)]
      exact hbelow
    obtain ⟨left, hleft⟩ := Inflow.drain_of_held hlen (by rw [hdrain]; exact hoffered)
    rw [hdrain] at hleft
    exact absurd hleft.symm (Option.some_ne_none left)

end

/-- Calls of `loop` on a sensor that never fails. -/
def sensorTurns : Nat → Icm20948 × Inflow Byte → List (Step (Icm20948 × Inflow Byte) LoopCall)
  | 0, _ => []
  | n + 1, s =>
    let out := Prog.run sensor ((loop DmpData.zero).run s.1) s.2
    ⟨s, ⟨DmpData.zero, out.1.1.1, out.1.1.2⟩, (out.1.2, out.2)⟩ :: sensorTurns n (out.1.2, out.2)

theorem run_sensorTurns (n : Nat) {s : Icm20948 × Inflow Byte}
    (hcap : s.2.stream.length ≤ fifoCapacity) : ∃ s', Run LoopStep s (sensorTurns n s) s' := by
  induction n generalizing s with
  | zero => exact ⟨s, rfl⟩
  | succ n ih =>
    obtain ⟨hexec, hcap'⟩ := exec_sensor ((loop DmpData.zero).run s.1) hcap
    obtain ⟨s', hrun⟩ := ih (s := (_, _)) hcap'
    exact ⟨s', rfl, ⟨_, hexec, Prog.allGood_trace good_sensor _ _⟩, hrun⟩

/-- One quaternion and nothing else, in eighteen bytes. -/
def quatSample : Sample :=
  ⟨Function.update (Values.report 0) .quat9 (⟨1, 2, 3⟩, 4), 0x0400, 0, 7, fun _ => rfl⟩

def dmpObject : Icm20948 :=
  { staticObject with device := { staticObject.device with dmpFirmwareAvailable := true } }

theorem quat9_quatSample : quatSample.quat9 = some (⟨1, 2, 3⟩, 4) := by decide

/-- As many of two such samples have been read as quaternions have been printed. -/
theorem Delivered.of_printed {turns : List (Step (Icm20948 × Inflow Byte) LoopCall)}
    {q : Inflow Byte} {read waiting : List Sample} {n : Nat}
    (h : Delivered [quatSample, quatSample] turns q read waiting)
    (hprinted : (turns.filterMap fun x => x.label.printed).length = n) :
    turns.filterMap (fun x => x.label.printed) = List.replicate n (⟨1, 2, 3⟩, 4) ∧
      waiting = List.replicate (2 - n) quatSample := by
  have hsame (l : List Sample) (hsub : l ⊆ read ++ waiting) :
      l = List.replicate l.length quatSample := by
    refine List.eq_replicate_of_mem fun sample hmem => ?_
    have hmem' : sample ∈ [quatSample, quatSample] := by
      rw [h.samples]
      exact hsub hmem
    simpa using hmem'
  have hread := hsame read (List.subset_append_left _ _)
  have hwaiting := hsame waiting (List.subset_append_right _ _)
  have hall : turns.filterMap (fun x => x.label.printed) =
      List.replicate read.length (⟨1, 2, 3⟩, 4) := by
    rw [h.printed, hread, List.length_replicate]
    exact List.filterMap_replicate_of_some quat9_quatSample
  have hlength : read.length = n := by
    rw [← hprinted, hall, List.length_replicate]
  have hboth : 2 = read.length + waiting.length := by
    rw [← List.length_append, ← h.samples]
    rfl
  have hleft : 2 - n = waiting.length := by omega
  rw [hall, hlength, hleft]
  exact ⟨rfl, hwaiting⟩

end SimuSound.Imu
