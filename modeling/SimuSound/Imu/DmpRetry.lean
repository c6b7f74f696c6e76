import SimuSound.Imu.DmpFraming

/-!
# DmpRetry — what becomes of a frame that has not all arrived

A call that finds part of a frame gives up with `FIFOIncompleteData`, but the header is out of the
FIFO by then, and later calls take the rest of the frame for something else.
-/

namespace SimuSound.Imu

open Reasoning

/-! ## Every stream begins with a frame, as far as it goes -/

theorem exists_bytes {n : Nat} {l : List Byte} (h : n ≤ l.length) :
    ∃ bytes : Bytes n, l = List.ofFn bytes ++ l.drop n :=
  ⟨fun i => l.getD i.val 0, by rw [ofFn_getD h, List.take_append_drop]⟩

theorem wordBytes_shortOf (bytes : Bytes 2) : wordBytes (shortOf bytes) = bytes := by
  funext i
  cases i using Fin.cases with
  | zero => exact BitVec.extractLsb'_append_eq_left
  | succ i =>
    obtain rfl : i = 0 := Subsingleton.elim i 0
    exact BitVec.extractLsb'_append_eq_right

theorem exists_word {l : List Byte} (h : 2 ≤ l.length) :
    ∃ w, l = List.ofFn (wordBytes w) ++ l.drop 2 := by
  obtain ⟨bytes, hl⟩ := exists_bytes h
  exact ⟨shortOf bytes, by rwa [wordBytes_shortOf]⟩

/-- Long enough bytes are payloads and a rest. -/
theorem exists_body (heads : DmpData) (ps : List Payload) {l : List Byte}
    (h : (ps.map fun payload => payload.part.len).sum ≤ l.length) :
    ∃ (body : List Filled) (rest : List Byte), body.map Filled.payload = ps ∧
      l = body.flatMap (Filled.wire heads) ++ rest := by
  induction ps generalizing l with
  | nil => exact ⟨[], l, rfl, rfl⟩
  | cons payload ps ih =>
    rw [List.map_cons, List.sum_cons] at h
    have hlen : payload.part.len ≤ l.length := Nat.le_of_add_right_le h
    obtain ⟨bytes, hl⟩ := exists_bytes hlen
    by_cases hbit : payload.announced heads
    · obtain ⟨body, rest, hbody, hrest⟩ := ih (l := l.drop payload.part.len) (by
        rw [List.length_drop]
        omega)
      refine ⟨⟨payload, bytes⟩ :: body, rest, by rw [List.map_cons, hbody], ?_⟩
      rw [List.flatMap_cons, Filled.wire, if_pos hbit, List.append_assoc, ← hrest]
      exact hl
    · obtain ⟨body, rest, hbody, hrest⟩ := ih (l := l) (by omega)
      refine ⟨⟨payload, bytes⟩ :: body, rest, by rw [List.map_cons, hbody], ?_⟩
      rw [List.flatMap_cons, Filled.wire, if_neg hbit, List.nil_append]
      exact hrest

theorem exists_frame_of_length {l : List Byte} (h : 122 ≤ l.length) :
    ∃ (f : Frame) (rest : List Byte), l = f.encode ++ rest := by
  obtain ⟨header, hl⟩ := exists_word (l := l) (by omega)
  obtain ⟨header2, l₂, habsent, hl₂, hlen₂⟩ : ∃ header2 l₂,
      (anyBit header header2Bitmap = false → header2 = 0) ∧
      l.drop 2 = (if anyBit header header2Bitmap then List.ofFn (wordBytes header2) else []) ++ l₂ ∧
      l.length ≤ l₂.length + 4 := by
    by_cases hbit : anyBit header header2Bitmap
    · obtain ⟨header2, hl₂⟩ := exists_word (l := l.drop 2) (by
        rw [List.length_drop]
        omega)
      refine ⟨header2, _, fun hno => absurd hbit (by simp [hno]), by rwa [if_pos hbit], ?_⟩
      simp only [List.length_drop]
      omega
    · refine ⟨0, l.drop 2, fun _ => rfl, by rw [if_neg hbit, List.nil_append], ?_⟩
      rw [List.length_drop]
      omega
  have hall : (payloads.map fun payload => payload.part.len).sum = 116 := rfl
  obtain ⟨body, l₃, hbody, hl₃⟩ :=
    exists_body { DmpData.zero with header := header, header2 := header2 } payloads (l := l₂)
      (by omega)
  have hwire := length_wire_le { DmpData.zero with header := header, header2 := header2 } body
  rw [hbody, hall] at hwire
  have hlen₃ := congrArg List.length hl₃
  rw [List.length_append] at hlen₃
  obtain ⟨footer, hl₄⟩ := exists_word (l := l₃) (by omega)
  refine ⟨⟨header, header2, body, footer, hbody, habsent⟩, l₃.drop 2, ?_⟩
  simp only [Frame.encode, Frame.afterHeader, List.append_assoc]
  rw [← hl₄]
  unfold Frame.heads
  rw [← hl₃]
  unfold Frame.header2Bytes
  rw [← hl₂]
  exact hl

theorem exists_frame (l : List Byte) :
    ∃ (f : Frame) (rest : List Byte), l <+: f.encode ++ rest := by
  obtain ⟨f, rest, h⟩ := exists_frame_of_length (l := l ++ List.replicate 122 0) (by
    rw [List.length_append, List.length_replicate]
    exact Nat.le_add_left _ _)
  exact ⟨f, rest, h ▸ List.prefix_append _ _⟩

/-! ## Calls only take from the stream -/

/-- Frames with the same headers are of the same length. -/
theorem lens_eq_of_heads {f g : Frame} (hheader : f.header = g.header)
    (hheader2 : f.header2 = g.header2) : f.lens = g.lens := by
  have hbody : ∀ (h : Frame) (heads : DmpData), h.body.flatMap (Filled.lens heads) =
      payloads.flatMap fun payload =>
        if payload.announced heads then [payload.part.len] else [] := by
    intro h heads
    rw [← h.lists, List.flatMap_map]
    rfl
  simp only [Frame.lens, Frame.restLens, Frame.header2Lens, Frame.heads, hbody, hheader, hheader2]

/-- What one call does to any stream. -/
theorem step_stream {s s' : Device × Inflow Byte} {call : DmpCall} (hstep : DmpStep s call s')
    (havail : s.1.dmpFirmwareAvailable = true) :
    s'.1 = s.1 ∧ s'.2.stream <:+ s.2.stream := by
  obtain ⟨tr, hexec, hok⟩ := hstep
  obtain ⟨f, rest, hstream⟩ := exists_frame s.2.stream
  obtain ⟨hpdev, hout⟩ := exec_call hexec hok havail hstream
  refine ⟨hpdev, ?_⟩
  cases hout with
  | noData _ _ hrest =>
    rw [hrest, Inflow.stream_arrive, Inflow.stream_arrive]
  | incomplete _ hdrain _ | complete _ _ hdrain _ =>
    have hsuffix := Inflow.drain_suffix 256 f.lens (Inflow.count_le 256) (q := s.2.arrive.arrive)
    rw [hdrain, Inflow.stream_arrive, Inflow.stream_arrive] at hsuffix
    exact hsuffix

/-- A frame is reported only when it has been taken. -/
theorem CallOutcome.taken {f : Frame} {data : DmpData} {q q' : Inflow Byte} {out : Read DmpData}
    (h : CallOutcome f data q out q')
    (hret : out.retval = Status.ok ∨ out.retval = Status.fifoMoreDataAvail) :
    out.val = f.fill data ∧
      ∃ left, q.arrive.arrive.drain 256 (q.count 256) f.lens = (some left, q') := by
  have hnoData : ¬ (Status.fifoNoDataAvail = Status.ok ∨
      Status.fifoNoDataAvail = Status.fifoMoreDataAvail) := by decide
  have hincomplete : ¬ (Status.fifoIncompleteData = Status.ok ∨
      Status.fifoIncompleteData = Status.fifoMoreDataAvail) := by decide
  cases h with
  | noData _ hout _ =>
    rw [hout] at hret
    exact absurd hret hnoData
  | incomplete _ _ hbad =>
    rw [hbad] at hret
    exact absurd hret hincomplete
  | complete left _ hdrain hout => exact ⟨by rw [hout], left, hdrain⟩

/-- And a call gives up only after it has counted a header and then too few bytes. -/
theorem CallOutcome.gaveUp {f : Frame} {data : DmpData} {q q' : Inflow Byte} {out : Read DmpData}
    (h : CallOutcome f data q out q') (hret : out.retval = Status.fifoIncompleteData) :
    2 ≤ q.count 256 ∧ q.arrive.arrive.drain 256 (q.count 256) f.lens = (none, q') := by
  have hnoData : Status.fifoNoDataAvail ≠ Status.fifoIncompleteData := by decide
  have hmore : Status.fifoMoreDataAvail ≠ Status.fifoIncompleteData := by decide
  have hdone : Status.ok ≠ Status.fifoIncompleteData := by decide
  cases h with
  | noData _ hout _ =>
    rw [hout] at hret
    exact absurd hret hnoData
  | incomplete hcount hdrain _ => exact ⟨hcount, hdrain⟩
  | complete left _ _ hout =>
    rw [hout] at hret
    split at hret
    · exact absurd hret hmore
    · exact absurd hret hdone

/-- A call that returns the frame `f` takes as many bytes as `f` has. -/
theorem length_of_returned {s s' : Device × Inflow Byte} {call : DmpCall} {f : Frame}
    (hstep : DmpStep s call s') (havail : s.1.dmpFirmwareAvailable = true)
    (hret : call.out.retval = Status.ok ∨ call.out.retval = Status.fifoMoreDataAvail)
    (hval : call.out.val = f.fill call.data) :
    s.2.stream.length = f.encode.length + s'.2.stream.length := by
  obtain ⟨tr, hexec, hok⟩ := hstep
  obtain ⟨g, rest, hstream⟩ := exists_frame s.2.stream
  obtain ⟨hval', left, hdrain⟩ := (exec_call hexec hok havail hstream).2.taken hret
  -- the headers that were reported are those of both frames, so the lengths agree
  have hsame : f.fill call.data = g.fill call.data := hval.symm.trans hval'
  obtain ⟨hheader, hheader2⟩ := f.fill_heads call.data
  obtain ⟨hheader', hheader2'⟩ := g.fill_heads call.data
  rw [hsame] at hheader hheader2
  have hlens : g.lens = f.lens :=
    lens_eq_of_heads (hheader'.symm.trans hheader) (hheader2'.symm.trans hheader2)
  obtain ⟨htaken, hfits, -⟩ := Inflow.drain_taken (Inflow.count_le 256) hdrain
  rw [hlens, f.sum_lens, Inflow.stream_arrive, Inflow.stream_arrive] at htaken hfits
  rw [htaken, List.length_drop]
  omega

/-! ## Retrying -/

/-- In the best case, with the bytes still to come arriving as they please, some later call returns
`f` as it would have been returned at once and leaves the frames behind it. -/
def Retried (f : Frame) (rest : List Frame) (s : Device × Inflow Byte) : Prop :=
  ∃ (schedule : List Nat) (calls : List (Step (Device × Inflow Byte) DmpCall))
    (c : Step (Device × Inflow Byte) DmpCall) (s' : Device × Inflow Byte),
    Run DmpStep (s.1, { s.2 with schedule := schedule }) (calls ++ [c]) s' ∧
    (c.label.out.retval = Status.ok ∨ c.label.out.retval = Status.fifoMoreDataAvail) ∧
    c.label.out.val = f.fill c.label.data ∧
    c.post.2.stream = stream rest

/-- When fewer bytes are left than the frame and its successors have, nothing brings it back. -/
theorem not_retried {f : Frame} {rest : List Frame} {s : Device × Inflow Byte}
    (havail : s.1.dmpFirmwareAvailable = true)
    (hlost : s.2.stream.length < f.encode.length + (stream rest).length) : ¬ Retried f rest s := by
  rintro ⟨schedule, calls, c, s', hrun, hret, hval, hrest⟩
  obtain ⟨m, hcalls, -, hstep, -⟩ := run_append.mp hrun
  -- no call before the last puts anything back
  let Kept : Device × Inflow Byte → Prop := fun t => t.1 = s.1 ∧ t.2.stream <:+ s.2.stream
  have hkept : Kept (s.1, { s.2 with schedule := schedule }) := ⟨rfl, List.suffix_refl _⟩
  obtain ⟨⟨hpdev, hsuffix⟩, -⟩ := hcalls.invariant hkept fun x _ hx hx' => by
    obtain ⟨hpdev, hsuffix⟩ := step_stream hx' (by rw [hx.1]; exact havail)
    exact ⟨hpdev.trans hx.1, hsuffix.trans hx.2⟩
  have hlength := length_of_returned hstep (by rw [hpdev]; exact havail) hret hval
  have hle := hsuffix.length_le
  rw [hrest] at hlength
  omega

/-- Only bytes of the frames `rest` are still to come. -/
def Arrived (rest : List Frame) (q : Inflow Byte) : Prop :=
  q.coming.length ≤ (stream rest).length

/-- The call sees no header and leaves the frame alone, or all of the frame has arrived by the time
the decoder stops: at the first part that its count does not cover, or at the end. -/
def InTime (f : Frame) (rest : List Frame) (q : Inflow Byte) : Prop :=
  q.count 256 < 2 ∨ Arrived rest (q.arrive.arrive.drain 256 (q.count 256) f.lens).2

section
variable {f : Frame} {rest : List Frame} {pdev pdev' : Device} {data : DmpData}
  {q q' : Inflow Byte} {tr : BusTrace (Inflow Byte)} {out : Read DmpData}

/-- Once a call returns `FIFOIncompleteData` the frame is lost. -/
theorem incomplete_not_retried
    (hexec : Prog.Exec fifo ((readDmpData data).run pdev) q tr (out, pdev') q') (hok : AllOk tr)
    (havail : pdev.dmpFirmwareAvailable = true) (hstream : q.stream = f.encode ++ stream rest)
    (hret : out.retval = Status.fifoIncompleteData) : ¬ Retried f rest (pdev', q') := by
  obtain ⟨rfl, hout⟩ := exec_call_whole hexec hok havail hstream
  refine not_retried havail ?_
  obtain ⟨hcount, hdrain⟩ := hout.gaveUp hret
  -- the header was counted, so it is gone
  have hsuffix := Inflow.drain_cons_suffix 256 f.restLens (Inflow.count_le 256) hcount
  change (q.arrive.arrive.drain 256 (q.count 256) f.lens).2.stream <:+ _ at hsuffix
  rw [hdrain, Inflow.stream_arrive, Inflow.stream_arrive, hstream] at hsuffix
  have hle : q'.stream.length ≤ _ := hsuffix.length_le
  rw [List.length_drop, List.length_append] at hle
  have hlength := f.length_encode_ge
  change q'.stream.length < _
  omega

/-- A frame that was taken as a whole had arrived. -/
theorem arrived_of_drain {left : Nat} (hstream : q.stream = f.encode ++ stream rest)
    (hdrain : q.arrive.arrive.drain 256 (q.count 256) f.lens = (some left, q')) :
    Arrived rest q' := by
  have htaken := (Inflow.drain_taken (Inflow.count_le 256) hdrain).1
  rw [f.sum_lens, Inflow.stream_arrive, Inflow.stream_arrive, hstream, List.drop_left] at htaken
  have hlength := congrArg List.length htaken
  rw [Inflow.stream, List.length_append] at hlength
  exact Nat.le_of_add_left_le hlength.le

end

/-- A frame whose last six bytes arrive after the call. -/
theorem incomplete_frame_is_lost :
    ¬ ∀ (f : Frame) (rest : List Frame) (pdev pdev' : Device) (data : DmpData)
      (q q' : Inflow Byte) (tr : BusTrace (Inflow Byte)) (out : Read DmpData),
      pdev.dmpFirmwareAvailable = true → q.stream = f.encode ++ stream rest →
      Prog.Exec fifo ((readDmpData data).run pdev) q tr (out, pdev') q' → AllOk tr →
      out.retval = Status.fifoIncompleteData → ¬ Arrived rest q' →
      Retried f rest (pdev', q') := by
  intro h
  let pdev : Device := ⟨true, true, 255, 0, 0, 0, 0, 0, 0, 0, 0, 0, 0, 0⟩
  let f := Frame.ofBytes 0x8000 0 (fun _ i => BitVec.ofNat 8 i) 7 (fun _ => rfl)
  let q : Inflow Byte := ⟨[0x80, 0, 0, 1], [2, 3, 4, 5, 0, 7], []⟩
  let call := (readDmpData DmpData.zero).run pdev
  have hstream : q.stream = f.encode ++ stream [] := by decide
  have hcap : q.stream.length ≤ fifoCapacity := by decide
  have hexec := (exec_sensor call hcap).1
  have hok : AllOk (Prog.trace sensor call q) := Prog.allGood_trace good_sensor call q
  have hret : (Prog.run sensor call q).1.1.retval = Status.fifoIncompleteData := by decide
  have hlate : ¬ (Prog.run sensor call q).2.coming.length ≤ (stream []).length := by decide
  exact incomplete_not_retried hexec hok rfl hstream hret
    (h f [] pdev _ _ q _ _ _ rfl hstream hexec hok hret hlate)

/-- A call that gives up on a frame that has not all arrived gives it back later exactly when there
is no such call, because the frame arrives in time. -/
theorem retry_iff_inTime {f : Frame} {rest : List Frame} {pdev pdev' : Device}
    (havail : pdev.dmpFirmwareAvailable = true) {data : DmpData} {q q' : Inflow Byte}
    (hstream : q.stream = f.encode ++ stream rest) {tr : BusTrace (Inflow Byte)}
    {out : Read DmpData}
    (hexec : Prog.Exec fifo ((readDmpData data).run pdev) q tr (out, pdev') q') (hok : AllOk tr) :
    (out.retval = Status.fifoIncompleteData → ¬ Arrived rest q' → Retried f rest (pdev', q')) ↔
      InTime f rest q := by
  have hout := (exec_call_whole hexec hok havail hstream).2
  unfold InTime
  constructor
  · intro hretry
    cases hout with
    | noData hcount _ _ => exact Or.inl hcount
    | incomplete _ hdrain hret =>
      rw [hdrain]
      by_contra hlate
      exact incomplete_not_retried hexec hok havail hstream hret
        (hretry hret fun h => hlate (Or.inr h))
    | complete left _ hdrain _ =>
      rw [hdrain]
      exact Or.inr (arrived_of_drain hstream hdrain)
  · intro hin hret hlate
    obtain ⟨hcount, hdrain⟩ := hout.gaveUp hret
    rw [hdrain] at hin
    rcases hin with hshort | harrived
    · exact absurd hshort (Nat.not_lt.mpr hcount)
    · exact absurd harrived hlate

/-- The same frame with its last six bytes arriving while it is counted again. -/
theorem retry_iff_inTime_counted_again :
    let pdev : Device := ⟨true, true, 255, 0, 0, 0, 0, 0, 0, 0, 0, 0, 0, 0⟩
    let f := Frame.ofBytes 0x8000 0 (fun _ i => BitVec.ofNat 8 i) 7 (fun _ => rfl)
    let q : Inflow Byte := ⟨[0x80, 0, 0, 1], [2, 3, 4, 5, 0, 7], [0, 0, 0, 6]⟩
    let out := Prog.run sensor ((readDmpData DmpData.zero).run pdev) q
    (out.1.1.retval = Status.fifoIncompleteData → ¬ Arrived [] out.2 →
      Retried f [] (out.1.2, out.2)) ↔ InTime f [] q := by
  intro pdev f q out
  have hstream : q.stream = f.encode ++ stream [] := by decide
  have hcap : q.stream.length ≤ fifoCapacity := by decide
  exact retry_iff_inTime rfl hstream (exec_sensor ((readDmpData DmpData.zero).run pdev) hcap).1
    (Prog.allGood_trace good_sensor _ _)

end SimuSound.Imu
