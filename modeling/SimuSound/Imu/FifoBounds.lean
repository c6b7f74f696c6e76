import SimuSound.Imu.FifoStream

/-!
# FifoBounds — the decoder never reads past what has arrived

The count that the decoder remembers never exceeds the number of bytes in the FIFO, whatever
arrives and however a count is torn.
-/

namespace SimuSound.Imu

open Reasoning

/-! ## The decoder with a checked counter -/

/-- `takePart` in which `fifo_count -= len` fails instead of wrapping around. -/
def takePartChecked (part : Part) (d : Decoder) : OptionT Io (Read Decoder) := do
  let r ← liftM (takePart part d)
  if r.retval = Status.ok ∧ d.fifoCount.toNat < part.len then failure
  return r

def readPartChecked (part : Part) (d : Decoder) : OptionT Io (Read Decoder) := do
  let counted : Read (BitVec 16) ← liftM <|
    if d.fifoCount.toNat < part.len then getFifoCount d.fifoCount
    else pure ⟨Status.ok, d.fifoCount⟩
  let d := { d with fifoCount := counted.val }
  if counted.retval ≠ Status.ok then return ⟨counted.retval, d⟩
  if d.fifoCount.toNat < part.len then return ⟨Status.fifoIncompleteData, d⟩
  takePartChecked part d

def readPayloadsChecked : List Payload → Decoder → OptionT Io (Read Decoder)
  | [], d => pure ⟨Status.ok, d⟩
  | payload :: rest, d => do
    if payload.announced d.data then
      let r ← readPartChecked payload.part d
      if r.retval ≠ Status.ok then return r
      readPayloadsChecked rest r.val
    else
      readPayloadsChecked rest d

def readHeader2Checked (d : Decoder) : OptionT Io (Read Decoder) :=
  if anyBit d.data.header header2Bitmap then readPartChecked header2Part d.clearHeader2
  else pure ⟨Status.ok, d.clearHeader2⟩

def readFrameChecked (d : Decoder) : OptionT Io (Read DmpData) := do
  let r ← takePartChecked headerPart { d with data := { d.data with header := 0 } }
  if r.retval ≠ Status.ok then return ⟨r.retval, r.val.data⟩
  let r ← readHeader2Checked r.val
  if r.retval ≠ Status.ok then return ⟨r.retval, r.val.data⟩
  let r ← readPayloadsChecked payloads r.val
  if r.retval ≠ Status.ok then return ⟨r.retval, r.val.data⟩
  let r ← readPartChecked footerPart r.val
  if r.retval ≠ Status.ok then return ⟨r.retval, r.val.data⟩
  if r.val.fifoCount.toNat > 0 then return ⟨Status.fifoMoreDataAvail, r.val.data⟩
  return ⟨r.retval, r.val.data⟩

/-- `inv_icm20948_read_dmp_data` with a counter that cannot underflow: `none` where it would. -/
def readDmpDataChecked (data : DmpData) : Drv (Option (Read DmpData)) := do
  let fifoBytes ← uninit dmpMaximumBytes
  let pdev ← get
  if pdev.dmpFirmwareAvailable = false then return some ⟨Status.dmpNotSupported, data⟩
  let count ← uninit 2
  let counted ← getFifoCount (shortOf count)
  if counted.retval ≠ Status.ok then return some ⟨counted.retval, data⟩
  if counted.val.toNat < headerPart.len then return some ⟨Status.fifoNoDataAvail, data⟩
  (readFrameChecked ⟨counted.val, fifoBytes, data⟩).run

theorem takePartChecked_eq (part : Part) (d : Decoder) (h : part.len ≤ d.fifoCount.toNat) :
    takePartChecked part d = liftM (takePart part d) := by
  have hnot : ∀ r : Read Decoder,
      ¬ (r.retval = Status.ok ∧ d.fifoCount.toNat < part.len) :=
    fun r hr => Nat.not_lt.mpr h hr.2
  simp only [takePartChecked, hnot, if_false, bind_pure]

theorem readPartChecked_eq (part : Part) (d : Decoder) :
    readPartChecked part d = liftM (readPart part d) := by
  rw [readPart_eq, liftM_bind]
  unfold readPartChecked
  refine bind_congr fun counted => ?_
  by_cases hret : counted.retval = Status.ok
  · by_cases hshort : counted.val.toNat < part.len
    · simp only [hret, hshort, ne_eq, not_true_eq_false, if_false, if_true, liftM_pure]
    · have hlen : part.len ≤ counted.val.toNat := Nat.le_of_not_lt hshort
      simp only [hret, hshort, ne_eq, not_true_eq_false, if_false]
      exact takePartChecked_eq part { d with fifoCount := counted.val } hlen
  · simp only [hret, ne_eq, not_false_eq_true, if_true, liftM_pure]

theorem readPayloadsChecked_eq (ps : List Payload) (d : Decoder) :
    readPayloadsChecked ps d = liftM (readPayloads ps d) := by
  induction ps generalizing d with
  | nil => rfl
  | cons payload rest ih =>
    simp only [readPayloadsChecked, readPayloads]
    split
    · rw [liftM_bind, readPartChecked_eq]
      refine bind_congr fun r => ?_
      split
      · rfl
      · exact ih r.val
    · exact ih d

theorem readHeader2Checked_eq (d : Decoder) :
    readHeader2Checked d = liftM (readHeader2 d) := by
  rw [readHeader2_eq]
  unfold readHeader2Checked
  split
  · exact readPartChecked_eq header2Part _
  · rfl

/-- The header is the one part that is not counted again. -/
theorem readFrameChecked_eq (d : Decoder) (h : headerPart.len ≤ d.fifoCount.toNat) :
    readFrameChecked d = liftM (readFrame d) := by
  have hstep : ∀ {p : OptionT Io (Read Decoder)} {p' : Io (Read Decoder)}
      {k : Read Decoder → OptionT Io (Read DmpData)} {k' : Read Decoder → Io (Read DmpData)},
      p = liftM p' → (∀ r, k r = liftM (k' r)) →
      (p >>= fun r => if r.retval ≠ Status.ok then pure ⟨r.retval, r.val.data⟩ else k r) =
        liftM (p' >>= fun r =>
          if r.retval ≠ Status.ok then pure ⟨r.retval, r.val.data⟩ else k' r) := by
    intro p p' k k' hp hk
    rw [hp, liftM_bind]
    refine bind_congr fun r => ?_
    split
    · rfl
    · exact hk r
  unfold readFrameChecked readFrame
  refine hstep (takePartChecked_eq _ _ h) fun r => ?_
  refine hstep (readHeader2Checked_eq _) fun r => ?_
  refine hstep (readPayloadsChecked_eq _ _) fun r => ?_
  refine hstep (readPartChecked_eq _ _) fun r => ?_
  split
  · rfl
  · rfl

theorem readDmpDataChecked_eq (data : DmpData) :
    readDmpDataChecked data = some <$> readDmpData data := by
  unfold readDmpDataChecked readDmpData
  simp only [map_bind]
  refine bind_congr fun fifoBytes => bind_congr fun pdev => ?_
  split
  · simp
  · simp only [map_bind]
    refine bind_congr fun count => bind_congr fun counted => ?_
    split
    · simp
    · split
      · simp
      · next hheader =>
        have hlen : headerPart.len ≤ counted.val.toNat := Nat.le_of_not_lt hheader
        rw [readFrameChecked_eq _ hlen]
        simp

/-! ## Bounds -/

/-- A read of the FIFO asks for no more than it holds and fits the buffer of the decoder. -/
def Within (o : Obs (Inflow Byte) BusEvent BusEvent.Resp) : Prop :=
  ∀ len, o.event = .read agb0RegFifoRW len → len ≤ o.pre.held.length ∧ len ≤ 14

/-- From `q`, a program reads within what the FIFO holds and ends as `post` says. -/
def ReadsWithin {α : Type} (post : α → Inflow Byte → Prop) (p : Io α) (q : Inflow Byte) : Prop :=
  ∀ tr a q', Prog.Exec fifo p q tr a q' → (∀ o ∈ tr, Within o) ∧ post a q'

/-- When the decoder goes on, the count it remembers is in the FIFO still. -/
abbrev StaysWithin (p : Io (Read Decoder)) (q : Inflow Byte) : Prop :=
  ReadsWithin (fun r q' => r.retval = Status.ok → r.val.fifoCount.toNat ≤ q'.held.length) p q

section
variable {q : Inflow Byte}

theorem ReadsWithin.guard {α : Type} {post : α → Inflow Byte → Prop} {p : Io (Read Decoder)}
    {fail : Read Decoder → α} {k : Read Decoder → Io α} (hp : StaysWithin p q)
    (hfail : ∀ r q', r.retval ≠ Status.ok → post (fail r) q')
    (hk : ∀ r q', r.val.fifoCount.toNat ≤ q'.held.length → ReadsWithin post (k r) q') :
    ReadsWithin post
      (p >>= fun r => if r.retval ≠ Status.ok then pure (fail r) else k r) q := by
  intro tr a q' hexec
  obtain ⟨r, q₁, t₁, t₂, rfl, hstep, hrest⟩ := exec_guardRead.mp hexec
  obtain ⟨hwithin, hcovered⟩ := hp t₁ r q₁ hstep
  by_cases hret : r.retval = Status.ok
  · rw [if_pos hret] at hrest
    obtain ⟨hafter, hpost⟩ := hk r q₁ (hcovered hret) t₂ a q' hrest
    exact ⟨fun o ho => (List.mem_append.mp ho).elim (hwithin o) (hafter o), hpost⟩
  · rw [if_neg hret] at hrest
    obtain ⟨rfl, rfl, rfl⟩ := hrest
    exact ⟨by rwa [List.append_nil], hfail r q' hret⟩

theorem readsWithin_pure {α : Type} {post : α → Inflow Byte → Prop} {a : α} (h : post a q) :
    ReadsWithin post (pure a) q := by
  rintro tr b q' ⟨rfl, rfl, rfl⟩
  exact ⟨fun o ho => absurd ho List.not_mem_nil, h⟩

theorem staysWithin_takePart {part : Part} {d : Decoder}
    (hcount : part.len ≤ d.fifoCount.toNat) (hd : d.fifoCount.toNat ≤ q.held.length) :
    StaysWithin (takePart part d) q := by
  intro tr r q' hexec
  obtain ⟨⟨answer, rfl⟩, hgood⟩ := exec_takePart hexec
  refine ⟨fun o ho len hevent => ?_, fun hret => ?_⟩
  · obtain rfl := List.mem_singleton.mp ho
    injection hevent with _ hlen
    rw [← hlen]
    exact ⟨hcount.trans hd, part.fits⟩
  · have harrived : part.len ≤ q.arrive.held.length :=
      (hcount.trans hd).trans q.length_le_arrive
    obtain ⟨hleft, rfl, -⟩ := hgood hret harrived
    rw [hleft, toNat_decrement hcount, Inflow.length_pop]
    exact Nat.sub_le_sub_right (hd.trans q.length_le_arrive) _

/-- Counting does not read the FIFO. -/
theorem within_of_getFifoCount {count : BitVec 16} {r : Read (BitVec 16)} {q' : Inflow Byte}
    {tr : BusTrace (Inflow Byte)} (hexec : Prog.Exec fifo (getFifoCount count) q tr r q') :
    ∀ o ∈ tr, Within o := by
  have huses : (getFifoCount count).Uses fun e => ∀ len, e ≠ .read agb0RegFifoRW len := by
    refine uses_getFifoCount count ?_ ?_ ?_
    · intro len len' h
      injection h
    · intro len h
      injection h with hreg
      exact absurd hreg (by decide)
    · intro len h
      injection h with hreg
      exact absurd hreg (by decide)
  exact fun o ho len hevent => absurd hevent (huses.exec hexec o ho len)

theorem staysWithin_readPart {part : Part} {d : Decoder} (hd : d.fifoCount.toNat ≤ q.held.length) :
    StaysWithin (readPart part d) q := by
  intro tr r q' hexec
  obtain ⟨counted, q₁, t₁, t₂, rfl, hcount, hrest⟩ := exec_readPart_steps hexec
  have hcounting : ∀ o ∈ t₁, Within o := by
    split at hcount
    · exact within_of_getFifoCount hcount
    · obtain ⟨rfl, -, -⟩ := hcount
      exact fun o ho => absurd ho List.not_mem_nil
  by_cases hret : counted.retval = Status.ok
  · have hcovered : counted.val.toNat ≤ q₁.held.length := by
      have hle := Inflow.ready_le 256 part.len hd
      rwa [← exec_recount hcount hret] at hle
    rw [if_pos hret] at hrest
    by_cases hshort : counted.val.toNat < part.len
    · rw [if_pos hshort] at hrest
      obtain ⟨rfl, rfl, rfl⟩ := hrest
      have hincomplete : Status.fifoIncompleteData ≠ Status.ok := by decide
      exact ⟨by rwa [List.append_nil], fun h => absurd h hincomplete⟩
    · rw [if_neg hshort] at hrest
      have hlen : part.len ≤ counted.val.toNat := Nat.le_of_not_lt hshort
      obtain ⟨htake, hleft⟩ :=
        staysWithin_takePart (d := { d with fifoCount := counted.val }) hlen hcovered t₂ r q' hrest
      refine ⟨fun o ho => ?_, hleft⟩
      exact (List.mem_append.mp ho).elim (hcounting o) (htake o)
  · rw [if_neg hret] at hrest
    obtain ⟨rfl, rfl, rfl⟩ := hrest
    exact ⟨by rwa [List.append_nil], fun h => absurd h hret⟩

theorem staysWithin_readHeader2 {d : Decoder} (hd : d.fifoCount.toNat ≤ q.held.length) :
    StaysWithin (readHeader2 d) q := by
  rw [readHeader2_eq]
  split
  · exact staysWithin_readPart hd
  · exact readsWithin_pure fun _ => hd

theorem staysWithin_readPayloads (ps : List Payload) {d : Decoder}
    (hd : d.fifoCount.toNat ≤ q.held.length) : StaysWithin (readPayloads ps d) q := by
  induction ps generalizing d q with
  | nil => exact readsWithin_pure fun _ => hd
  | cons payload rest ih =>
    rw [readPayloads]
    split
    · exact .guard (staysWithin_readPart hd) (fun r q' hbad hret => absurd hret hbad)
        fun r q' hcovered => ih hcovered
    · exact ih hd

theorem readsWithin_readFrame {d : Decoder} (hheader : headerPart.len ≤ d.fifoCount.toNat)
    (hd : d.fifoCount.toNat ≤ q.held.length) :
    ReadsWithin (fun _ _ => True) (readFrame d) q := by
  have htrue : ∀ (r : Read Decoder) (q' : Inflow Byte), r.retval ≠ Status.ok → True :=
    fun _ _ _ => trivial
  refine .guard (staysWithin_takePart hheader hd) htrue fun r q' hcovered => ?_
  refine .guard (staysWithin_readHeader2 hcovered) htrue fun r q' hcovered => ?_
  refine .guard (staysWithin_readPayloads payloads hcovered) htrue fun r q' hcovered => ?_
  refine .guard (staysWithin_readPart hcovered) htrue fun r q' hcovered => ?_
  split
  · exact readsWithin_pure trivial
  · exact readsWithin_pure trivial

theorem readsWithin_readAvailable (data : DmpData) (fifoBytes : Bytes dmpMaximumBytes) :
    ReadsWithin (fun _ _ => True) (readAvailable data fifoBytes) q := by
  intro tr out q' hexec
  refine ⟨?_, trivial⟩
  obtain ⟨garbage, counted, q₁, t₁, t₂, rfl, hcount, hrest⟩ := exec_readAvailable hexec
  have hafter : ∀ o ∈ t₂, Within o := by
    by_cases hret : counted.retval = Status.ok
    · obtain ⟨hcounted, rfl⟩ := exec_getFifoCount hcount hret
      rw [if_pos hret] at hrest
      by_cases hshort : counted.val.toNat < headerPart.len
      · rw [if_pos hshort] at hrest
        obtain ⟨rfl, -, -⟩ := hrest
        exact fun o ho => absurd ho List.not_mem_nil
      · rw [if_neg hshort] at hrest
        -- torn or not, the first count does not exceed what has arrived by its end
        have hcovered : counted.val.toNat ≤ q.arrive.arrive.held.length :=
          hcounted ▸ Inflow.count_le 256
        exact (readsWithin_readFrame (Nat.le_of_not_lt hshort) hcovered t₂ out q' hrest).1
    · rw [if_neg hret] at hrest
      obtain ⟨rfl, -, -⟩ := hrest
      exact fun o ho => absurd ho List.not_mem_nil
  intro o ho
  rcases List.mem_cons.mp ho with rfl | ho
  · intro len hevent
    exact absurd hevent (by simp)
  · exact (List.mem_append.mp ho).elim (within_of_getFifoCount hcount o) (hafter o)

end

/-- Whatever is in the FIFO and whatever arrives meanwhile, the decoder asks for no more than has
arrived and for no more than 14 bytes at once, and its counter does not underflow: with a counter
that would fail instead, the run is the same. -/
theorem readDmpData_within_fifo {data : DmpData} {pdev pdev' : Device} {q q' : Inflow Byte}
    {tr : BusTrace (Inflow Byte)} {out : Read DmpData}
    (hexec : Prog.Exec fifo ((readDmpData data).run pdev) q tr (out, pdev') q') :
    (∀ o ∈ tr, ∀ len, o.event = .read agb0RegFifoRW len → len ≤ o.pre.held.length ∧ len ≤ 14) ∧
      Prog.Exec fifo ((readDmpDataChecked data).run pdev) q tr (some out, pdev') q' := by
  constructor
  · obtain ⟨-, fifoBytes, t, rfl, hcall⟩ := exec_readDmpData hexec
    intro o ho
    rcases List.mem_cons.mp ho with rfl | ho
    · intro len hevent
      exact absurd hevent (by simp)
    · split at hcall
      · obtain ⟨rfl, -, -⟩ := hcall
        exact absurd ho List.not_mem_nil
      · exact (readsWithin_readAvailable data fifoBytes t out q' hcall).1 o ho
  · rw [readDmpDataChecked_eq]
    exact Prog.exec_map.mpr ⟨out, rfl, hexec⟩

/-- A header whose second byte arrives while the FIFO is counted, and an accelerometer payload that
arrives in two pieces. -/
theorem readDmpData_within_fifo_torn :
    let pdev : Device := ⟨true, true, 255, 0, 0, 0, 0, 0, 0, 0, 0, 0, 0, 0⟩
    let q : Inflow Byte := ⟨[0x80], [0, 1, 2, 3, 4, 5, 6, 7, 8], [0, 1, 0, 3, 3, 0, 0, 2]⟩
    let call := (readDmpData DmpData.zero).run pdev
    (∀ o ∈ Prog.trace sensor call q, ∀ len, o.event = .read agb0RegFifoRW len →
      len ≤ o.pre.held.length ∧ len ≤ 14) ∧
    Prog.Exec fifo ((readDmpDataChecked DmpData.zero).run pdev) q (Prog.trace sensor call q)
      (some (Prog.run sensor call q).1.1, (Prog.run sensor call q).1.2)
      (Prog.run sensor call q).2 := by
  intro pdev q call
  exact readDmpData_within_fifo (exec_sensor call (by decide)).1

end SimuSound.Imu
