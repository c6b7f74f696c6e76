import SimuSound.Remote.BtThread

/-!
# Relay — lines from the sender's standard input to the receiver's mailbox

The loop of `bt_remote_test` filters standard input into lines and passes each to `send_data`; the
`bt_thread` at the other end of the serial link takes the bytes apart again.
-/

namespace SimuSound.Remote

open Reasoning

/-- One call of `send_data`: its argument and what it returned. -/
structure SendCall where
  data : List Byte
  result : Int

/-- `ret != data.length()` decides the result of `send_data`; `ret` is what `write` returned. -/
def sendResult (ret : Int) (data : List Byte) : Int := if ret ≠ data.length then 1 else 0

/-- The sender: the line being typed, the calls of `send_data` and the bytes on the link. -/
structure Sender where
  strIn : Line
  calls : List SendCall
  wire : List Byte

def Sender.start : Sender := ⟨[], [], []⟩

/-- `send_data(data)`, where the `k`-th `write` of the run returns `write k`. -/
def Sender.sendData (write : Nat → Int) (s : Sender) (data : List Byte) : Sender :=
  let ret := write s.calls.length
  { s with
    calls := s.calls ++ [⟨data, sendResult ret data⟩]
    wire := s.wire ++ data.take ret.toNat }

/-- The inner loop of `main` over the bytes of one read of standard input. -/
def Sender.scanBuf (write : Nat → Int) : List Byte → Sender → Sender
  | [], s => s
  | c :: rest, s =>
    if c = newline then
      scanBuf write rest { s.sendData write (s.strIn ++ [newline]) with strIn := [] }
    else if c = 0 then s
    else if printable c then scanBuf write rest { s with strIn := s.strIn ++ [c] }
    else scanBuf write rest s

def Sender.run (write : Nat → Int) (s : Sender) (chunks : List ReadResult) : Sender :=
  chunks.foldl (fun s r => s.scanBuf write r.buf) s

/-! ## The sender as a framer -/

/-- The line being typed and the lines sent, without their newlines. -/
def Sender.framer (s : Sender) : Framer Byte := ⟨s.strIn, s.calls.map fun c => c.data.dropLast⟩

theorem Sender.framer_send (write : Nat → Int) (s : Sender) :
    Sender.framer { s.sendData write (s.strIn ++ [newline]) with strIn := [] } =
      s.framer.push newline newline := by
  unfold Sender.framer Sender.sendData Framer.push
  rw [if_pos rfl]
  simp only [List.map_append, List.map_cons, List.map_nil, List.dropLast_concat]

theorem Sender.framer_scanBuf (write : Nat → Int) (buf : List Byte) (s : Sender) :
    (s.scanBuf write buf).framer = s.framer.feed newline (kept buf) := by
  -- on the bytes left, with the branches of the inner loop as the cases
  induction buf generalizing s with
  | nil => rfl
  | cons c rest ih =>
    unfold Sender.scanBuf
    by_cases hnl : c = newline
    · rw [if_pos hnl, ih, framer_send, hnl, kept_newline]
      rfl
    · rw [if_neg hnl]
      by_cases hnul : c = 0
      · subst hnul
        rw [if_pos rfl, kept_nul]
        rfl
      · rw [if_neg hnul]
        by_cases hc : printable c = true
        · rw [if_pos hc, ih, kept_printable c rest hnul hc]
          change _ = Framer.feed newline (Framer.push newline _ c) _
          rw [Framer.push, if_neg hnl]
          rfl
        · rw [if_neg hc, ih, kept_dropped c rest hnl hnul ((Bool.not_eq_true _).mp hc)]

theorem Sender.framer_run (write : Nat → Int) (chunks : List ReadResult) (s : Sender) :
    (s.run write chunks).framer = s.framer.feed newline (keptOf chunks) := by
  induction chunks generalizing s with
  | nil => rfl
  | cons r chunks ih =>
    change ((s.scanBuf write r.buf).run write chunks).framer = _
    rw [ih, framer_scanBuf]
    unfold keptOf
    rw [List.flatMap_cons, Framer.feed_append]

/-! ## What reaches the wire -/

/-- Every argument of `send_data` ends in a newline, and as long as every call wrote all its bytes
the wire carries exactly the arguments. -/
structure Sender.Delivered (s : Sender) : Prop where
  terminated : ∀ c ∈ s.calls, c.data.dropLast ++ [newline] = c.data
  wire_eq : (∀ c ∈ s.calls, c.result = 0) → s.wire = s.calls.flatMap SendCall.data

theorem Sender.start_delivered : Sender.start.Delivered :=
  ⟨fun _ hc => absurd hc List.not_mem_nil, fun _ => rfl⟩

theorem take_of_sendResult_eq_zero {ret : Int} {data : List Byte} (h : sendResult ret data = 0) :
    data.take ret.toNat = data := by
  unfold sendResult at h
  by_cases hret : ret = data.length
  · apply List.take_of_length_le
    omega
  · -- a short or failed `write` makes `send_data` return 1
    rw [if_pos hret] at h
    exact absurd h (by decide)

theorem Sender.Delivered.send {s : Sender} (h : s.Delivered) (write : Nat → Int) :
    Sender.Delivered { s.sendData write (s.strIn ++ [newline]) with strIn := [] } := by
  constructor
  · intro c hc
    rcases List.mem_append.mp hc with hc | hc
    · exact h.terminated c hc
    · rw [List.mem_singleton.mp hc, List.dropLast_concat]
  · intro hok
    -- this call wrote all its bytes, and so did those before it
    have hbefore : ∀ c ∈ s.calls, c.result = 0 := fun c hc => hok c (List.mem_append_left _ hc)
    have hlast := hok _ (List.mem_append_right s.calls List.mem_cons_self)
    change s.wire ++ List.take _ _ = List.flatMap SendCall.data (s.calls ++ [_])
    rw [take_of_sendResult_eq_zero hlast, h.wire_eq hbefore, List.flatMap_append,
      List.flatMap_singleton]

theorem Sender.Delivered.scanBuf {s : Sender} (h : s.Delivered) (write : Nat → Int)
    (buf : List Byte) : (s.scanBuf write buf).Delivered := by
  induction buf generalizing s with
  | nil => exact h
  | cons c rest ih =>
    unfold Sender.scanBuf
    by_cases hnl : c = newline
    · rw [if_pos hnl]
      exact ih (h.send write)
    · rw [if_neg hnl]
      by_cases hnul : c = 0
      · rw [if_pos hnul]
        exact h
      · rw [if_neg hnul]
        by_cases hc : printable c = true
        · rw [if_pos hc]
          exact ih ⟨h.terminated, h.wire_eq⟩
        · rw [if_neg hc]
          exact ih h

theorem Sender.Delivered.run {s : Sender} (h : s.Delivered) (write : Nat → Int)
    (chunks : List ReadResult) : (s.run write chunks).Delivered := by
  induction chunks generalizing s with
  | nil => exact h
  | cons r chunks ih => exact ih (h.scanBuf write r.buf)

/-- The arguments of `send_data`, one after another, are the sent lines in their wire encoding. -/
theorem Sender.Delivered.encode {s : Sender} (h : s.Delivered) :
    s.calls.flatMap SendCall.data = Framer.encode newline s.framer.frames := by
  unfold Framer.encode Sender.framer
  rw [List.flatMap_map]
  exact (List.flatMap_congr fun c hc => h.terminated c hc).symm

/-! ## The lines that were sent -/

theorem visible_of_mem_kept {buf : List Byte} {c : Byte} (hc : c ∈ kept buf) : visible c = true :=
  (List.mem_filter.mp hc).2

theorem printable_of_visible {c : Byte} (hc : visible c = true) (hnl : c ≠ newline) :
    printable c = true := by
  unfold visible at hc
  rw [Bool.or_eq_true, beq_iff_eq] at hc
  exact hc.resolve_left hnl

theorem Sender.clean_run (write : Nat → Int) (chunks : List ReadResult) :
    (Sender.start.run write chunks).framer.Clean newline fun c => printable c = true := by
  rw [Sender.framer_run]
  apply Framer.clean_feed
  · exact ⟨fun c hc => absurd hc List.not_mem_nil, fun f hf => absurd hf List.not_mem_nil⟩
  · intro c hc hnl
    obtain ⟨r, -, hkept⟩ := List.mem_flatMap.mp hc
    exact printable_of_visible (visible_of_mem_kept hkept) hnl

theorem ne_zero_of_printable {c : Byte} (hc : printable c = true) : c ≠ 0 := by
  rintro rfl
  exact absurd hc (by decide)

/-- Encoded lines of printable characters are visible and free of NULs. -/
theorem visible_of_mem_encode {s : Framer Byte}
    (h : s.Clean newline fun c => printable c = true) {c : Byte}
    (hc : c ∈ Framer.encode newline s.frames) : visible c = true ∧ c ≠ 0 := by
  rcases Framer.mem_encode newline hc with rfl | ⟨f, hf, hcf⟩
  · decide
  · have hp := (h.2 f hf c hcf).2
    refine ⟨?_, ne_zero_of_printable hp⟩
    unfold visible
    rw [hp, Bool.or_true]

/-- The receiver recovers the lines of any encoded stream of printable lines. -/
theorem run_encode {s : Framer Byte} (h : s.Clean newline fun c => printable c = true)
    (reads : List ReadResult) (hlink : stream reads = Framer.encode newline s.frames) :
    BtThread.start.run reads = ⟨[], s.frames⟩ := by
  -- no read can be left early, so no byte of the stream is skipped
  have hno : ∀ r ∈ reads, 0 ∉ r.buf := by
    intro r hr hmem
    have hmem' : (0 : Byte) ∈ stream reads := List.mem_flatMap.mpr ⟨r, hr, hmem⟩
    rw [hlink] at hmem'
    exact (visible_of_mem_encode h hmem').2 rfl
  have hkept : keptOf reads = Framer.encode newline s.frames := by
    rw [keptOf_of_no_nul reads hno]
    change (stream reads).filter visible = _
    rw [hlink]
    exact List.filter_eq_self.mpr fun c hc => (visible_of_mem_encode h hc).1
  -- and no line holds a newline of its own
  have hframes : ∀ f ∈ s.frames, newline ∉ f := fun f hf hmem => (h.2 f hf _ hmem).1 rfl
  rw [← BtThread.framer_inj, BtThread.framer_run, hkept]
  exact Framer.feed_encode newline s.frames hframes []

/-- If every `send_data` wrote all its bytes and the link delivered them, then however either side's
reads were cut, the receiver's lines are the arguments of `send_data` less their final newlines. -/
theorem relay_lines (write : Nat → Int) (chunks reads : List ReadResult)
    (hsent : ∀ c ∈ (Sender.start.run write chunks).calls, c.result = 0)
    (hlink : stream reads = (Sender.start.run write chunks).wire) :
    (BtThread.start.run reads).dataIn.map (· ++ [newline]) =
        (Sender.start.run write chunks).calls.map SendCall.data ∧
      (BtThread.start.run reads).str = [] := by
  have hdel := Sender.start_delivered.run write chunks
  rw [hdel.wire_eq hsent, hdel.encode] at hlink
  rw [run_encode (Sender.clean_run write chunks) reads hlink]
  refine ⟨?_, rfl⟩
  unfold Sender.framer
  rw [List.map_map]
  exact List.map_congr_left fun c hc => hdel.terminated c hc

/-- Two lines, one of them empty, cut differently at the two ends. -/
theorem relay_lines_hi :
    let write : Nat → Int := fun k => if k = 0 then 3 else 1
    let chunks : List ReadResult :=
      [.bytes [0x68] (by decide), .failed, .bytes [0x69, newline, newline] (by decide)]
    let reads : List ReadResult :=
      [.bytes [0x68, 0x69] (by decide), .bytes [newline, newline] (by decide)]
    (BtThread.start.run reads).dataIn.map (· ++ [newline]) =
        (Sender.start.run write chunks).calls.map SendCall.data ∧
      (BtThread.start.run reads).str = [] :=
  relay_lines _ _ _ (by decide) (by decide)

end SimuSound.Remote
