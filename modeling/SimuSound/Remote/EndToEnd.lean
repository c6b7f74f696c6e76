import SimuSound.Remote.Mailbox
import SimuSound.Remote.Relay

/-!
# EndToEnd — from the sender's standard input to what `get_data` returns

The two ends of the serial link together: the loop of `bt_remote_test` that types lines into
`send_data`, the `bt_thread` that takes the bytes apart while more are being written, and the
`get_data` calls that empty the mailbox between its inserts.
-/

namespace SimuSound.Remote

open Reasoning

/-! ## What a sender has put on the wire -/

/-- `str_in.push_back('\n'); send_data(str_in); str_in = "";` -/
def Sender.sendLine (write : Nat → Int) (s : Sender) : Sender :=
  { s.sendData write (s.strIn ++ [newline]) with strIn := [] }

/-- The loop invariant rule of `main`'s inner loop: a line is sent, or one character is typed. -/
theorem Sender.scanBuf_invariant {Inv : Sender → Prop} {write : Nat → Int}
    (hsend : ∀ s, Inv s → Inv (s.sendLine write))
    (hpush : ∀ s c, printable c = true → Inv s → Inv { s with strIn := s.strIn ++ [c] })
    (buf : List Byte) {s : Sender} (h : Inv s) : Inv (s.scanBuf write buf) := by
  induction buf generalizing s with
  | nil => exact h
  | cons c rest ih =>
    unfold Sender.scanBuf
    by_cases hnl : c = newline
    · rw [if_pos hnl]
      exact ih (hsend s h)
    · rw [if_neg hnl]
      by_cases hnul : c = 0
      · rw [if_pos hnul]
        exact h
      · rw [if_neg hnul]
        by_cases hc : printable c = true
        · rw [if_pos hc]
          exact ih (hpush s c hc h)
        · rw [if_neg hc]
          exact ih h

/-- No `write` returns more than it was given. -/
def Sender.WritesWithin (write : Nat → Int) (s : Sender) : Prop :=
  ∀ k (h : k < s.calls.length), write k ≤ s.calls[k].data.length

/-- The calls of `send_data` before the first that returned an error. -/
def Sender.sentWhole (s : Sender) : List SendCall := s.calls.takeWhile (·.result = 0)

/-- The bytes that all calls of `send_data` were given. -/
def Sender.given (s : Sender) : List Byte := s.calls.flatMap SendCall.data

/-- The wire holds only what a line is made of, it begins with the lines sent whole, and it is as
long as what the calls were given only if none of them returned an error. -/
structure Sender.Accounted (write : Nat → Int) (s : Sender) : Prop where
  delivered : s.Delivered
  typed : ∀ c ∈ s.strIn, printable c = true
  plain : ∀ c ∈ s.wire, visible c = true ∧ c ≠ 0
  whole : s.sentWhole.flatMap SendCall.data <+: s.wire
  short : s.WritesWithin write → s.wire.length ≤ s.given.length ∧
    (s.wire.length = s.given.length → ∀ c ∈ s.calls, c.result = 0)

theorem Sender.start_accounted (write : Nat → Int) : Sender.start.Accounted write where
  delivered := start_delivered
  typed := fun _ hc => absurd hc List.not_mem_nil
  plain := fun _ hc => absurd hc List.not_mem_nil
  whole := List.prefix_rfl
  short := fun _ => ⟨le_rfl, fun _ _ hc => absurd hc List.not_mem_nil⟩

theorem visible_of_printable {c : Byte} (hc : printable c = true) : visible c = true := by
  unfold visible
  rw [hc, Bool.or_true]

/-- The line that is sent, with its newline, is plain. -/
theorem Sender.Accounted.plain_line {write : Nat → Int} {s : Sender} (h : s.Accounted write)
    {c : Byte} (hc : c ∈ s.strIn ++ [newline]) : visible c = true ∧ c ≠ 0 := by
  rcases List.mem_append.mp hc with hc | hc
  · exact ⟨visible_of_printable (h.typed c hc), ne_zero_of_printable (h.typed c hc)⟩
  · rw [List.mem_singleton.mp hc]
    decide

theorem sendResult_eq_zero_iff {ret : Int} {data : List Byte} :
    sendResult ret data = 0 ↔ ret = data.length := by
  unfold sendResult
  by_cases hret : ret = data.length
  · rw [if_neg (not_not.mpr hret)]
    exact ⟨fun _ => hret, fun _ => rfl⟩
  · rw [if_pos hret]
    exact ⟨fun h => absurd h (by decide), fun h => absurd h hret⟩

/-- A bound on all calls bounds those before the last, and the last. -/
theorem Sender.WritesWithin.of_sendLine {write : Nat → Int} {s : Sender}
    (h : (s.sendLine write).WritesWithin write) :
    s.WritesWithin write ∧ write s.calls.length ≤ s.strIn.length + 1 := by
  let line := s.strIn ++ [newline]
  let calls := s.calls ++ [⟨line, sendResult (write s.calls.length) line⟩]
  have hlen : calls.length = s.calls.length + 1 := List.length_append
  have hall : ∀ k (hk : k < calls.length), write k ≤ calls[k].data.length := h
  constructor
  · intro k hk
    have hkth := hall k (by omega)
    rw [List.getElem_append_left hk] at hkth
    exact hkth
  · have hlast := hall s.calls.length (by omega)
    rw [List.getElem_concat_length rfl, List.length_append] at hlast
    exact hlast

theorem Sender.length_wire_sendLine (write : Nat → Int) (s : Sender) :
    (s.sendLine write).wire.length =
      s.wire.length + min (write s.calls.length).toNat (s.strIn.length + 1) := by
  unfold Sender.sendLine Sender.sendData
  rw [List.length_append, List.length_take, List.length_append, List.length_singleton]

theorem Sender.length_given_sendLine (write : Nat → Int) (s : Sender) :
    (s.sendLine write).given.length = s.given.length + (s.strIn.length + 1) := by
  unfold Sender.given Sender.sendLine Sender.sendData
  rw [List.flatMap_append, List.flatMap_singleton, List.length_append, List.length_append,
    List.length_singleton]

/-- The lines sent whole, after one more line, still begin the wire. -/
theorem Sender.Accounted.whole_sendLine {write : Nat → Int} {s : Sender} (h : s.Accounted write) :
    (s.sendLine write).sentWhole.flatMap SendCall.data <+: (s.sendLine write).wire := by
  let line := s.strIn ++ [newline]
  let ret := write s.calls.length
  change List.flatMap _ (List.takeWhile _ (s.calls ++ [⟨line, sendResult ret line⟩])) <+:
    s.wire ++ line.take ret.toNat
  rw [List.takeWhile_append]
  by_cases hall : (s.calls.takeWhile (·.result = 0)).length = s.calls.length
  · -- nothing has failed before this call
    rw [if_pos hall]
    have hok : ∀ c ∈ s.calls, c.result = 0 := by
      have heq : s.calls.takeWhile (·.result = 0) = s.calls :=
        (List.takeWhile_prefix _).eq_of_length hall
      intro c hc
      exact of_decide_eq_true (List.takeWhile_eq_self_iff.mp heq c hc)
    rw [List.flatMap_append, ← h.delivered.wire_eq hok]
    apply (List.prefix_append_right_inj s.wire).mpr
    by_cases hres : sendResult ret line = 0
    · rw [take_of_sendResult_eq_zero hres]
      simp only [List.takeWhile_cons, hres, decide_true, if_true, List.takeWhile_nil,
        List.flatMap_cons, List.flatMap_nil, List.append_nil, List.prefix_rfl]
    · simp only [List.takeWhile_cons, hres, decide_false, Bool.false_eq_true, if_false,
        List.flatMap_nil, List.nil_prefix]
  · rw [if_neg hall]
    exact h.whole.trans (List.prefix_append _ _)

theorem Sender.Accounted.sendLine {write : Nat → Int} {s : Sender} (h : s.Accounted write) :
    (s.sendLine write).Accounted write := by
  refine ⟨h.delivered.send write, fun c hc => absurd hc List.not_mem_nil, fun c hc => ?_,
    h.whole_sendLine, fun hwithin => ?_⟩
  · rcases List.mem_append.mp hc with hc | hc
    · exact h.plain c hc
    · exact h.plain_line (List.mem_of_mem_take hc)
  · obtain ⟨hbefore, hret⟩ := hwithin.of_sendLine
    obtain ⟨hle, hall⟩ := h.short hbefore
    have hwire := s.length_wire_sendLine write
    have hgiven := s.length_given_sendLine write
    refine ⟨by omega, fun heq c hc => ?_⟩
    -- a line is not empty, so all of it can only be written by a positive return value
    rcases List.mem_append.mp hc with hc | hc
    · exact hall (by omega) c hc
    · rw [List.mem_singleton.mp hc]
      apply sendResult_eq_zero_iff.mpr
      rw [List.length_append, List.length_singleton]
      omega

theorem Sender.Accounted.scanBuf {write : Nat → Int} {s : Sender} (h : s.Accounted write)
    (buf : List Byte) : (s.scanBuf write buf).Accounted write := by
  refine scanBuf_invariant (fun s hs => hs.sendLine) (fun s c hc hs => ?_) buf h
  refine ⟨⟨hs.delivered.terminated, hs.delivered.wire_eq⟩, fun x hx => ?_, hs.plain, hs.whole,
    hs.short⟩
  rcases List.mem_append.mp hx with hx | hx
  · exact hs.typed x hx
  · rw [List.mem_singleton.mp hx]
    exact hc

/-- What is on the wire stays there. -/
theorem Sender.wire_prefix_scanBuf (write : Nat → Int) (buf : List Byte) (s : Sender) :
    s.wire <+: (s.scanBuf write buf).wire := by
  have hsend (t : Sender) (ht : s.wire <+: t.wire) : s.wire <+: (t.sendLine write).wire :=
    ht.trans (List.prefix_append _ _)
  exact @scanBuf_invariant (fun t => s.wire <+: t.wire) write hsend (fun t c _ ht => ht) buf s
    List.prefix_rfl

/-! ## Both ends of the link -/

/-- The sender, the bytes the reader has read, its unfinished line, the lines of a read it has not
inserted yet, and the mailbox. -/
structure Link where
  sender : Sender
  delivered : List Byte
  str : Line
  tempStrs : Option (List Line)
  mailbox : Mailbox

namespace Link

def start : Link := ⟨.start, [], [], none, .initial⟩

/-- A read of standard input at one end; a read of the port, the insert after it, and the two steps
of a `get_data` call at the other. -/
inductive Label
  | typed (r : ReadResult)
  | read (r : ReadResult)
  | insert
  | copy (call : Nat)
  | clear (call : Nat)

/-- What the port gives is what was written to it, in order.  A chunk of standard input is one step,
since what it writes waits on the link until it is read. -/
def step (write : Nat → Int) (s : Link) : Label → Link → Prop
  | .typed r, s' => s' = { s with sender := s.sender.scanBuf write r.buf }
  | .read r, s' => s.tempStrs = none ∧ s.delivered ++ r.buf <+: s.sender.wire ∧
      s' = { s with
        delivered := s.delivered ++ r.buf
        str := (scanBuf r.buf s.str []).1
        tempStrs := some (scanBuf r.buf s.str []).2 }
  | .insert, s' => ∃ batch, s.tempStrs = some batch ∧
      s' = { s with tempStrs := none, mailbox := s.mailbox.append batch }
  | .copy call, s' => ∃ m, s.mailbox.step (.copy call) m ∧ s' = { s with mailbox := m }
  | .clear call, s' => ∃ m, s.mailbox.step (.clear call) m ∧ s' = { s with mailbox := m }

/-- `get_data` keeps apart from the inserts and from other calls. -/
def Apart (s : Link) : Label → Prop
  | .insert => ∀ batch, s.tempStrs = some batch → s.mailbox.Apart (.append batch)
  | .copy call => s.mailbox.Apart (.copy call)
  | _ => True

/-- Everything written to the link has been read. -/
def Drained (s : Link) : Prop := s.delivered = s.sender.wire

/-- The lines that have reached the receiver: returned, in `data_in`, or about to be inserted. -/
def received (s : Link) : List Line := s.mailbox.returned ++ s.mailbox.dataIn ++ s.tempStrs.getD []

/-- The read of standard input that a step is. -/
def Label.chunks : Label → List ReadResult
  | .typed r => [r]
  | _ => []

def typed (tr : List (Step Link Label)) : List ReadResult := tr.flatMap fun x => x.label.chunks

/-- The lines typed in a run. -/
def lines (tr : List (Step Link Label)) : List Line :=
  (Framer.feed newline ⟨[], []⟩ (keptOf (typed tr))).frames

/-- What has been read is the beginning of the wire, the reader is where these bytes lead, and the
mailbox has lost nothing. -/
structure InStep (write : Nat → Int) (s : Link) : Prop where
  accounted : s.sender.Accounted write
  delivered : s.delivered <+: s.sender.wire
  framer : (⟨s.str, s.mailbox.appended ++ s.tempStrs.getD []⟩ : Framer Byte) =
    Framer.feed newline ⟨[], []⟩ s.delivered
  mailbox : s.mailbox.Undisturbed

theorem start_inStep (write : Nat → Int) : start.InStep write :=
  ⟨Sender.start_accounted write, List.prefix_rfl, rfl, Mailbox.initial_undisturbed⟩

/-- Bytes that are all visible and none of them NUL all count. -/
theorem kept_eq_self {buf : List Byte} (h : ∀ c ∈ buf, visible c = true ∧ c ≠ 0) :
    kept buf = buf := by
  have hnul : buf.takeWhile (· ≠ 0) = buf :=
    List.takeWhile_eq_self_iff.mpr fun c hc => decide_eq_true (h c hc).2
  unfold kept
  rw [hnul]
  exact List.filter_eq_self.mpr fun c hc => (h c hc).1

theorem InStep.read {write : Nat → Int} {s : Link} (h : s.InStep write) {r : ReadResult}
    (hidle : s.tempStrs = none) (hlink : s.delivered ++ r.buf <+: s.sender.wire) :
    InStep write { s with
      delivered := s.delivered ++ r.buf
      str := (scanBuf r.buf s.str []).1
      tempStrs := some (scanBuf r.buf s.str []).2 } := by
  refine ⟨h.accounted, hlink, ?_, h.mailbox⟩
  have hbuf : kept r.buf = r.buf :=
    kept_eq_self fun c hc => h.accounted.plain c (hlink.mem (List.mem_append_right _ hc))
  have hbefore := h.framer
  rw [hidle, Option.getD_none] at hbefore
  change (⟨(scanBuf r.buf s.str []).1, s.mailbox.appended ++ (scanBuf r.buf s.str []).2⟩ :
    Framer Byte) = _
  rw [scanBuf_feed, hbefore, hbuf, ← Framer.feed_append]

theorem InStep.insert {write : Nat → Int} {s : Link} (h : s.InStep write) {batch : List Line}
    (hbatch : s.tempStrs = some batch) (hapart : s.mailbox.Apart (.append batch)) :
    InStep write { s with tempStrs := none, mailbox := s.mailbox.append batch } := by
  refine ⟨h.accounted, h.delivered, ?_, h.mailbox.step hapart rfl⟩
  have hbefore := h.framer
  rw [hbatch, Option.getD_some] at hbefore
  change (⟨s.str, s.mailbox.appended ++ batch ++ []⟩ : Framer Byte) = _
  rw [List.append_nil, hbefore]

theorem InStep.step {write : Nat → Int} {s s' : Link} {l : Label} (h : s.InStep write)
    (hapart : s.Apart l) (hstep : s.step write l s') : s'.InStep write := by
  cases l with
  | typed r =>
    rw [show s' = _ from hstep]
    exact ⟨h.accounted.scanBuf r.buf,
      h.delivered.trans (Sender.wire_prefix_scanBuf write r.buf s.sender), h.framer, h.mailbox⟩
  | read r =>
    obtain ⟨hidle, hlink, rfl⟩ := hstep
    exact h.read hidle hlink
  | insert =>
    obtain ⟨batch, hbatch, rfl⟩ := hstep
    exact h.insert hbatch (hapart batch hbatch)
  | copy call =>
    obtain ⟨m, hm, rfl⟩ := hstep
    have hmailbox := Mailbox.Undisturbed.step (l := .copy call) h.mailbox hapart hm
    obtain ⟨-, rfl⟩ := hm
    exact ⟨h.accounted, h.delivered, h.framer, hmailbox⟩
  | clear call =>
    obtain ⟨m, hm, rfl⟩ := hstep
    have hmailbox := Mailbox.Undisturbed.step (l := .clear call) h.mailbox trivial hm
    obtain ⟨data, -, rfl⟩ := hm
    exact ⟨h.accounted, h.delivered, h.framer, hmailbox⟩

/-! ## What the receiver gets -/

theorem sender_step {write : Nat → Int} {s s' : Link} {l : Label} (hstep : s.step write l s') :
    s'.sender = s.sender.run write l.chunks := by
  cases l with
  | typed r => rw [show s' = _ from hstep]; rfl
  | read r => rw [hstep.2.2]; rfl
  | insert => obtain ⟨-, -, rfl⟩ := hstep; rfl
  | copy call => obtain ⟨-, -, rfl⟩ := hstep; rfl
  | clear call => obtain ⟨-, -, rfl⟩ := hstep; rfl

theorem sender_of_run {write : Nat → Int} {tr : List (Step Link Label)} {s' : Link}
    (hrun : Run (step write) start tr s') : s'.sender = Sender.start.run write (typed tr) := by
  apply @Run.history _ _ _ (fun past s => s.sender = Sender.start.run write (typed past)) _ _ _
    hrun rfl
  intro past x hpast hstep
  unfold typed at hpast ⊢
  rw [List.flatMap_append, List.flatMap_singleton, sender_step hstep, hpast]
  unfold Sender.run
  rw [← List.foldl_append]

/-- The lines typed are the arguments of `send_data`, less their newlines. -/
theorem lines_of_run {write : Nat → Int} {tr : List (Step Link Label)} {s' : Link}
    (hrun : Run (step write) start tr s') : lines tr = s'.sender.framer.frames := by
  rw [sender_of_run hrun, Sender.framer_run]
  rfl

/-- What has reached the receiver is what the bytes it has read hold. -/
theorem InStep.received {write : Nat → Int} {s : Link} (h : s.InStep write) :
    s.received = (Framer.feed newline ⟨[], []⟩ s.delivered).frames := by
  rw [← h.framer]
  change s.mailbox.returned ++ s.mailbox.dataIn ++ _ = s.mailbox.appended ++ _
  rw [show s.mailbox.returned ++ s.mailbox.dataIn = s.mailbox.appended from h.mailbox.complete]

/-- The lines that were sent whole, before the first failure. -/
def wholeLines (s : Link) : List Line := s.sender.sentWhole.map fun c => c.data.dropLast

theorem wholeLines_prefix (s : Link) : s.wholeLines <+: s.sender.framer.frames :=
  (List.takeWhile_prefix _).map _

theorem wholeLines_eq {s : Link} (h : ∀ c ∈ s.sender.calls, c.result = 0) :
    s.wholeLines = s.sender.framer.frames := by
  unfold wholeLines Sender.sentWhole
  rw [List.takeWhile_eq_self_iff.mpr fun c hc => decide_eq_true (h c hc)]
  rfl

/-- The lines sent whole are what the first bytes of the wire hold. -/
theorem InStep.encode_wholeLines {write : Nat → Int} {s : Link} (h : s.InStep write) :
    Framer.encode newline s.wholeLines <+: s.sender.wire := by
  have hdata : s.sender.sentWhole.flatMap SendCall.data = Framer.encode newline s.wholeLines := by
    unfold Framer.encode wholeLines
    rw [List.flatMap_map]
    apply List.flatMap_congr
    intro c hc
    exact (h.accounted.delivered.terminated c ((List.takeWhile_prefix _).mem hc)).symm
  rw [← hdata]
  exact h.accounted.whole

/-- The frames of a clean stream of lines are those lines. -/
theorem frames_encode {fs : List Line} (h : ∀ f ∈ fs, newline ∉ f) :
    (Framer.feed newline ⟨[], []⟩ (Framer.encode newline fs)).frames = fs := by
  rw [Framer.feed_encode newline fs h, List.nil_append]

/-- As far as both go, what the receiver has and what was sent whole agree. -/
theorem InStep.agree {write : Nat → Int} {s : Link} (h : s.InStep write)
    (hnl : ∀ f ∈ s.sender.framer.frames, newline ∉ f) :
    (s.received <+: s.wholeLines ∨ s.wholeLines <+: s.received) ∧
      (s.Drained → s.wholeLines <+: s.received) := by
  have hwhole := frames_encode fun f hf => hnl f (s.wholeLines_prefix.mem hf)
  have hlonger : Framer.encode newline s.wholeLines <+: s.delivered →
      s.wholeLines <+: s.received := by
    intro hpre
    have hframes := Framer.frames_feed_prefix newline ⟨[], []⟩ hpre
    rw [hwhole, ← h.received] at hframes
    exact hframes
  constructor
  · -- the bytes read and the encoded lines are both a beginning of the wire
    rcases List.prefix_or_prefix_of_prefix h.delivered h.encode_wholeLines with hpre | hpre
    · have hframes := Framer.frames_feed_prefix newline ⟨[], []⟩ hpre
      rw [hwhole, ← h.received] at hframes
      exact Or.inl hframes
    · exact Or.inr (hlonger hpre)
  · intro hdrained
    apply hlonger
    rw [show s.delivered = s.sender.wire from hdrained]
    exact h.encode_wholeLines

/-- If the receiver has all the lines, then their bytes were all written. -/
theorem InStep.all_sent {write : Nat → Int} {s : Link} (h : s.InStep write)
    (hwithin : s.sender.WritesWithin write) (hall : s.received = s.sender.framer.frames) :
    ∀ c ∈ s.sender.calls, c.result = 0 := by
  obtain ⟨hle, hexact⟩ := h.accounted.short hwithin
  have hgiven : s.sender.given = Framer.encode newline s.sender.framer.frames :=
    h.accounted.delivered.encode
  -- what was read renders to the lines, and it is at most what was written
  have hrender := Framer.render_feed newline ⟨[], []⟩ s.delivered
  have hread := h.delivered.length_le
  have hlen : s.sender.given.length ≤ s.delivered.length := by
    rw [hgiven, ← hall, h.received]
    have hdel := congrArg List.length hrender
    unfold Framer.render at hdel
    simp only [List.length_append, Framer.encode, List.flatMap_nil, List.length_nil] at hdel ⊢
    omega
  exact hexact (by omega)

/-- In any interleaving in which `get_data` keeps apart from the inserts, what reaches the receiver
agrees with the lines sent before the first failed `send_data`; if none has failed it is the
beginning of the lines typed; and once the link is drained it is all of them, once and in order,
exactly when no `send_data` has failed. -/
theorem lines_arrive {write : Nat → Int} {tr : List (Step Link Label)} {s' : Link}
    (hrun : Run (step write) start tr s') (hapart : ∀ x ∈ tr, x.pre.Apart x.label) :
    (s'.wholeLines <+: lines tr ∧
      (s'.received <+: s'.wholeLines ∨ s'.wholeLines <+: s'.received) ∧
      (s'.Drained → s'.wholeLines <+: s'.received)) ∧
    ((∀ c ∈ s'.sender.calls, c.result = 0) → s'.received <+: lines tr) ∧
    (s'.sender.WritesWithin write → s'.Drained →
      (s'.received = lines tr ↔ ∀ c ∈ s'.sender.calls, c.result = 0)) := by
  have hin : s'.InStep write :=
    (hrun.invariant (start_inStep write) fun x hx h hstep => h.step (hapart x hx) hstep).1
  have hclean := Sender.clean_run write (typed tr)
  rw [← sender_of_run hrun] at hclean
  have hnl : ∀ f ∈ s'.sender.framer.frames, newline ∉ f :=
    fun f hf hmem => (hclean.2 f hf _ hmem).1 rfl
  obtain ⟨hagree, hdrained⟩ := hin.agree hnl
  rw [lines_of_run hrun]
  -- with no failure the wire is the encoded lines
  have hok : (∀ c ∈ s'.sender.calls, c.result = 0) →
      s'.sender.wire = Framer.encode newline s'.sender.framer.frames := by
    intro hall
    rw [hin.accounted.delivered.wire_eq hall]
    exact hin.accounted.delivered.encode
  have hbegin : (∀ c ∈ s'.sender.calls, c.result = 0) →
      s'.received <+: s'.sender.framer.frames := by
    intro hall
    have hframes := Framer.frames_feed_prefix newline ⟨[], []⟩ hin.delivered
    rw [hok hall, frames_encode hnl, ← hin.received] at hframes
    exact hframes
  refine ⟨⟨s'.wholeLines_prefix, hagree, hdrained⟩, hbegin, fun hwithin hdrain => ?_⟩
  constructor
  · exact hin.all_sent hwithin
  · intro hall
    rw [← wholeLines_eq hall] at hbegin ⊢
    exact (hbegin hall).eq_of_length_le (hdrained hdrain).length_le

/-- One line, typed, read and inserted. -/
theorem lines_arrive_hi :
    let s₁ : Link := { start with
      sender := ⟨[], [⟨[0x68, 0x69, newline], 0⟩], [0x68, 0x69, newline]⟩ }
    let s₂ : Link := { s₁ with
      delivered := [0x68, 0x69, newline], tempStrs := some [[0x68, 0x69]] }
    let s₃ : Link := { s₂ with tempStrs := none, mailbox := s₂.mailbox.append [[0x68, 0x69]] }
    s₃.received = [[0x68, 0x69]] := by
  intro s₁ s₂ s₃
  have hwithin : s₃.sender.WritesWithin fun _ => 3 := by
    intro k hk
    obtain rfl := Nat.lt_one_iff.mp hk
    exact Int.le_refl 3
  have h := @lines_arrive (fun _ => 3)
    [⟨start, .typed (.bytes [0x68, 0x69, newline] (by decide)), s₁⟩,
      ⟨s₁, .read (.bytes [0x68, 0x69, newline] (by decide)), s₂⟩, ⟨s₂, .insert, s₃⟩] s₃
    ⟨rfl, rfl, rfl, ⟨rfl, by decide, rfl⟩, rfl, ⟨_, rfl, rfl⟩, rfl⟩
    (by simp only [List.forall_mem_cons, Apart, true_and, List.not_mem_nil, false_imp_iff,
          implies_true, and_true]
        exact fun _ _ => Or.inr Mailbox.initial_quiescent)
  exact (h.2.2 hwithin rfl).mpr (by decide)

end Link

end SimuSound.Remote
