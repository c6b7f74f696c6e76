import SimuSound.Imu.FifoStream
import SimuSound.Reasoning.Transition

/-!
# DmpFraming — frames on the wire and calls that take them off

A frame is what the DMP writes for one sample.  How many bytes it has follows from its two headers,
so a decoder that takes other numbers of bytes loses every later frame.
-/

namespace SimuSound.Imu

open Reasoning

/-! ## Frames -/

/-- Big-endian, as the DMP writes numbers. -/
def wordBytes (w : BitVec 16) : Bytes 2 := ![w.extractLsb' 8 8, w.extractLsb' 0 8]

theorem shortOf_wordBytes (w : BitVec 16) : shortOf (wordBytes w) = w := by
  change w.extractLsb' 8 8 ++ w.extractLsb' 0 8 = w
  have hnext : 8 = 0 + 8 := rfl
  rw [BitVec.extractLsb'_append_extractLsb'_eq_extractLsb' hnext, BitVec.extractLsb'_eq_self]

/-- A payload with its bytes. -/
structure Filled where
  payload : Payload
  bytes : Bytes payload.part.len

/-- What `x` contributes to a frame with the headers of `data`. -/
def Filled.wire (data : DmpData) (x : Filled) : List Byte :=
  if x.payload.announced data then List.ofFn x.bytes else []

def Filled.lens (data : DmpData) (x : Filled) : List Nat :=
  if x.payload.announced data then [x.payload.part.len] else []

/-- What it contributes to the structure of the caller. -/
def Filled.storeTo (data : DmpData) (x : Filled) : DmpData :=
  if x.payload.announced data then x.payload.part.store x.bytes data else data

/-- A frame has bytes for every payload that the decoder knows, and sends those that it announces.
Without the bit for it there is no second header. -/
structure Frame where
  header : BitVec 16
  header2 : BitVec 16
  body : List Filled
  footer : BitVec 16
  lists : body.map Filled.payload = payloads
  absent : anyBit header header2Bitmap = false → header2 = 0

namespace Frame

/-- The structure of the caller with the headers of the frame. -/
def heads (f : Frame) (data : DmpData) : DmpData :=
  { data with header := f.header, header2 := f.header2 }

def header2Bytes (f : Frame) : List Byte :=
  if anyBit f.header header2Bitmap then List.ofFn (wordBytes f.header2) else []

def afterHeader (f : Frame) : List Byte :=
  f.header2Bytes ++
    (f.body.flatMap (Filled.wire (f.heads DmpData.zero)) ++ List.ofFn (wordBytes f.footer))

def encode (f : Frame) : List Byte := List.ofFn (wordBytes f.header) ++ f.afterHeader

def header2Lens (f : Frame) : List Nat := if anyBit f.header header2Bitmap then [2] else []

def restLens (f : Frame) : List Nat :=
  f.header2Lens ++ (f.body.flatMap (Filled.lens (f.heads DmpData.zero)) ++ [2])

/-- The numbers of bytes that the decoder takes, one after the other. -/
def lens (f : Frame) : List Nat := [2] ++ f.restLens

/-- The structure of the caller with the frame in it. -/
def fill (f : Frame) (data : DmpData) : DmpData :=
  { f.body.foldl Filled.storeTo (f.heads data) with footer := f.footer }

theorem known (f : Frame) : ∀ x ∈ f.body, x.payload ∈ payloads := by
  intro x hx
  rw [← f.lists]
  exact List.mem_map_of_mem hx

end Frame

/-- The same bytes for each payload. -/
def Frame.ofBytes (header header2 : BitVec 16) (bytes : (n : Nat) → Bytes n) (footer : BitVec 16)
    (habsent : anyBit header header2Bitmap = false → header2 = 0) : Frame where
  header := header
  header2 := header2
  body := payloads.map fun payload => ⟨payload, bytes payload.part.len⟩
  footer := footer
  lists := by rw [List.map_map]; exact List.map_id payloads
  absent := habsent

/-! ## What the headers decide -/

/-- The same headers. -/
def SameHeads (data data' : DmpData) : Prop :=
  data.header = data'.header ∧ data.header2 = data'.header2

theorem SameHeads.trans {data₁ data₂ data₃ : DmpData} (h : SameHeads data₁ data₂)
    (h' : SameHeads data₂ data₃) : SameHeads data₁ data₃ :=
  ⟨h.1.trans h'.1, h.2.trans h'.2⟩

theorem store_heads : ∀ payload ∈ payloads, ∀ bytes data,
    SameHeads (payload.part.store bytes data) data := by
  simp only [payloads, List.forall_mem_cons, List.not_mem_nil, false_implies, implies_true,
    and_true]
  and_intros
  all_goals exact fun bytes data => ⟨rfl, rfl⟩

theorem storeTo_heads {x : Filled} (hx : x.payload ∈ payloads) (data : DmpData) :
    SameHeads (Filled.storeTo data x) data := by
  unfold Filled.storeTo
  split
  · exact store_heads x.payload hx x.bytes data
  · exact ⟨rfl, rfl⟩

theorem announced_congr : ∀ payload ∈ payloads, ∀ data data', SameHeads data data' →
    payload.announced data = payload.announced data' := by
  have hheader : ∀ payload ∈ payloads,
      payload.header = DmpData.header ∨ payload.header = DmpData.header2 := by
    simp only [payloads, List.forall_mem_cons, List.not_mem_nil, false_implies, implies_true,
      and_true]
    and_intros
    all_goals first
      | exact Or.inl rfl
      | exact Or.inr rfl
  intro payload hmem data data' hsame
  unfold Payload.announced
  rcases hheader payload hmem with h | h
  · rw [h, hsame.1]
  · rw [h, hsame.2]

/-! ## Taking the parts of a frame -/

/-- A piece of the decoder that goes for batches of `lens` bytes, with `count` remembered, either
falls short and gives up, or takes them and leaves `data`. -/
inductive Outcome (lens : List Nat) (data : DmpData) (count : Nat) (q : Inflow Byte)
    (r : Read Decoder) (q' : Inflow Byte) : Prop
  | short (hdrain : q.drain 256 count lens = (none, q'))
      (hret : r.retval = Status.fifoIncompleteData)
  | taken (hdrain : q.drain 256 count lens = (some r.val.fifoCount.toNat, q'))
      (hret : r.retval = Status.ok) (hdata : r.val.data = data)

section
variable {q q₁ q' : Inflow Byte} {tr : BusTrace (Inflow Byte)} {d : Decoder}
  {r r₁ : Read Decoder} {lens lens' : List Nat} {data data' : DmpData}

theorem Outcome.none (hdata : d.data = data) :
    Outcome [] data d.fifoCount.toNat q ⟨Status.ok, d⟩ q :=
  .taken rfl rfl hdata

/-- One piece and then another. -/
theorem Outcome.append {count : Nat} (hcovered : count ≤ q.held.length)
    (h : Outcome lens data count q r₁ q₁)
    (hshort : r₁.retval = Status.fifoIncompleteData →
      r.retval = Status.fifoIncompleteData ∧ q' = q₁)
    (hnext : r₁.retval = Status.ok → r₁.val.fifoCount.toNat ≤ q₁.held.length →
      r₁.val.data = data → q₁.stream = q.stream.drop lens.sum →
      Outcome lens' data' r₁.val.fifoCount.toNat q₁ r q') :
    Outcome (lens ++ lens') data' count q r q' := by
  cases h with
  | short hdrain hret =>
    obtain ⟨hret', rfl⟩ := hshort hret
    refine .short ?_ hret'
    rw [Inflow.drain_append, hdrain]
  | taken hdrain hret hdata =>
    obtain ⟨hstream, -, hleft⟩ := Inflow.drain_taken hcovered hdrain
    have hjoined : q.drain 256 count (lens ++ lens') =
        q₁.drain 256 r₁.val.fifoCount.toNat lens' := by
      rw [Inflow.drain_append, hdrain]
    cases hnext hret hleft hdata hstream with
    | short hdrain' hret' => exact .short (hjoined.trans hdrain') hret'
    | taken hdrain' hret' hdata' => exact .taken (hjoined.trans hdrain') hret' hdata'

/-- One piece and then another, in a program that returns at the first failure. -/
theorem Outcome.guard {count : Nat} {p : Io (Read Decoder)} {k : Read Decoder → Io (Read Decoder)}
    (hexec : Prog.Exec fifo (p >>= fun r => if r.retval ≠ Status.ok then pure r else k r) q tr r q')
    (hok : AllOk tr) (hcovered : count ≤ q.held.length)
    (hp : ∀ t r₁ q₁, Prog.Exec fifo p q t r₁ q₁ → AllOk t → Outcome lens data count q r₁ q₁)
    (hk : ∀ t r₁ q₁, r₁.val.fifoCount.toNat ≤ q₁.held.length → r₁.val.data = data →
      q₁.stream = q.stream.drop lens.sum → Prog.Exec fifo (k r₁) q₁ t r q' → AllOk t →
      Outcome lens' data' r₁.val.fifoCount.toNat q₁ r q') :
    Outcome (lens ++ lens') data' count q r q' := by
  obtain ⟨r₁, q₁, t₁, t₂, rfl, hstep, hrest⟩ := exec_guardRead.mp hexec
  obtain ⟨hok₁, hok₂⟩ := allOk_append t₁ t₂ |>.mp hok
  refine (hp t₁ r₁ q₁ hstep hok₁).append hcovered (fun hshort => ?_)
    fun hret hleft hdata hstream => ?_
  · have hbad : r₁.retval ≠ Status.ok := by
      rw [hshort]
      decide
    rw [if_neg hbad] at hrest
    obtain ⟨-, rfl, rfl⟩ := hrest
    exact ⟨hshort, rfl⟩
  · rw [if_pos hret] at hrest
    exact hk t₂ r₁ q₁ hleft hdata hstream hrest hok₂

theorem drop_prefix {l xs rest : List Byte} {n : Nat} (h : l <+: xs ++ rest)
    (hn : n = xs.length) : l.drop n <+: rest := by
  rw [hn]
  obtain ⟨pad, hpad⟩ := h
  have hdrop := congrArg (List.drop xs.length) hpad
  rw [List.drop_left, List.drop_append] at hdrop
  exact ⟨_, hdrop⟩

/-- A part whose bytes come next, if they come at all. -/
theorem outcome_readPart {part : Part} {bytes : Bytes part.len} {rest : List Byte}
    (hexec : Prog.Exec fifo (readPart part d) q tr r q') (hok : AllOk tr)
    (hcovered : d.fifoCount.toNat ≤ q.held.length)
    (hstream : q.stream <+: List.ofFn bytes ++ rest) :
    Outcome [part.len] (part.store bytes d.data) d.fifoCount.toNat q r q' := by
  obtain ⟨count, q₁, hready⟩ : ∃ count q₁, q.ready 256 d.fifoCount.toNat part.len = (count, q₁) :=
    ⟨_, _, rfl⟩
  obtain ⟨hshort, htaken⟩ := exec_readPart hexec hok hcovered hready
  by_cases hlen : count < part.len
  · obtain ⟨hret, rfl⟩ := hshort hlen
    refine .short ?_ hret
    rw [Inflow.drain, hready, if_pos hlen]
  · obtain ⟨hret, rfl, hleft, bytes', hbytes, hdata⟩ := htaken (Nat.le_of_not_lt hlen)
    have hfits : part.len ≤ q.stream.length := by
      have hlength := congrArg List.length hbytes
      rw [List.length_ofFn, List.length_take] at hlength
      omega
    obtain ⟨pad, hpad⟩ := hstream
    rw [← List.take_append_of_le_length hfits, hpad, List.take_left' List.length_ofFn] at hbytes
    rw [List.ofFn_injective hbytes] at hdata
    refine .taken ?_ hret hdata
    rw [Inflow.drain, hready, if_neg hlen, Inflow.drain, hleft]

/-- The payloads, one after the other. -/
theorem outcome_readPayloads {body : List Filled} (hknown : ∀ x ∈ body, x.payload ∈ payloads)
    {heads : DmpData} (hheads : SameHeads d.data heads) {rest : List Byte}
    (hexec : Prog.Exec fifo (readPayloads (body.map Filled.payload) d) q tr r q') (hok : AllOk tr)
    (hcovered : d.fifoCount.toNat ≤ q.held.length)
    (hstream : q.stream <+: body.flatMap (Filled.wire heads) ++ rest) :
    Outcome (body.flatMap (Filled.lens heads)) (body.foldl Filled.storeTo d.data)
      d.fifoCount.toNat q r q' := by
  induction body generalizing d q tr with
  | nil =>
    obtain ⟨-, rfl, rfl⟩ := hexec
    exact .none rfl
  | cons x body ih =>
    have hx : x.payload ∈ payloads := hknown x List.mem_cons_self
    have hannounced := announced_congr x.payload hx _ _ hheads
    rw [List.map_cons, readPayloads] at hexec
    rw [List.flatMap_cons, List.append_assoc] at hstream
    rw [List.flatMap_cons, List.foldl_cons]
    by_cases hbit : x.payload.announced d.data
    · rw [if_pos hbit] at hexec
      have hwire : x.wire heads = List.ofFn x.bytes := if_pos (hannounced ▸ hbit)
      have hlens : x.lens heads = [x.payload.part.len] := if_pos (hannounced ▸ hbit)
      have hstore : Filled.storeTo d.data x = x.payload.part.store x.bytes d.data := if_pos hbit
      have hlength : [x.payload.part.len].sum = (List.ofFn x.bytes).length := by simp
      rw [hwire] at hstream
      rw [hlens, hstore]
      refine .guard hexec hok hcovered
        (fun t r₁ q₁ hstep hgood => outcome_readPart hstep hgood hcovered hstream)
        fun t r₁ q₁ hleft hdata hnext hstep hgood => ?_
      have hrest := drop_prefix hstream hlength
      rw [← hnext] at hrest
      rw [← hdata]
      -- the bytes just stored left the headers alone
      have hheads₁ : SameHeads r₁.val.data heads := by
        rw [hdata]
        exact (store_heads x.payload hx x.bytes d.data).trans hheads
      exact ih (fun y hy => hknown y (List.mem_cons_of_mem x hy)) hheads₁ hstep hgood hleft hrest
    · rw [if_neg hbit] at hexec
      have hwire : x.wire heads = [] := if_neg (hannounced ▸ hbit)
      have hlens : x.lens heads = [] := if_neg (hannounced ▸ hbit)
      have hstore : Filled.storeTo d.data x = d.data := if_neg hbit
      rw [hwire, List.nil_append] at hstream
      rw [hlens, List.nil_append, hstore]
      exact ih (fun y hy => hknown y (List.mem_cons_of_mem x hy)) hheads hexec hok hcovered hstream

theorem outcome_readHeader2 {f : Frame} {rest : List Byte}
    (hexec : Prog.Exec fifo (readHeader2 d) q tr r q') (hok : AllOk tr)
    (hcovered : d.fifoCount.toNat ≤ q.held.length) (hheader : d.data.header = f.header)
    (hstream : q.stream <+: f.header2Bytes ++ rest) :
    Outcome f.header2Lens (f.heads d.data) d.fifoCount.toNat q r q' := by
  rw [readHeader2_eq, hheader] at hexec
  unfold Frame.header2Bytes at hstream
  unfold Frame.header2Lens
  have hheads : f.heads d.data = { d.data with header2 := f.header2 } := by
    rw [Frame.heads, ← hheader]
  by_cases hbit : anyBit f.header header2Bitmap
  · rw [if_pos hbit] at hexec hstream ⊢
    have hpart := outcome_readPart hexec hok hcovered hstream
    have hdata : header2Part.store (wordBytes f.header2) d.clearHeader2.data = f.heads d.data := by
      rw [hheads]
      change { d.data with header2 := shortOf (wordBytes f.header2) } = _
      rw [shortOf_wordBytes]
    rw [hdata] at hpart
    exact hpart
  · rw [if_neg hbit] at hexec ⊢
    obtain ⟨-, rfl, rfl⟩ := hexec
    refine .none (d := d.clearHeader2) ?_
    rw [hheads, f.absent (Bool.not_eq_true _ |>.mp hbit)]
    rfl

/-- The parts of a frame after its header. -/
def readRest (d : Decoder) : Io (Read Decoder) := do
  let r ← readHeader2 d
  if r.retval ≠ Status.ok then return r
  let r ← readPayloads payloads r.val
  if r.retval ≠ Status.ok then return r
  readPart footerPart r.val

/-- All of them; the header, already counted, is taken as it is. -/
def readParts (d : Decoder) : Io (Read Decoder) := do
  let r ← takePart headerPart { d with data := { d.data with header := 0 } }
  if r.retval ≠ Status.ok then return r
  readRest r.val

/-- What the call returns when that is done. -/
def frameResult (r : Read Decoder) : Read DmpData :=
  if r.retval ≠ Status.ok then ⟨r.retval, r.val.data⟩
  else if r.val.fifoCount.toNat > 0 then ⟨Status.fifoMoreDataAvail, r.val.data⟩
  else ⟨r.retval, r.val.data⟩

theorem readFrame_eq (d : Decoder) :
    readFrame d = readParts d >>= fun r => pure (frameResult r) := by
  have hguard : ∀ (p : Io (Read Decoder)) (k : Read Decoder → Io (Read Decoder))
      (k' : Read Decoder → Io (Read DmpData)),
      (∀ r, k' r = k r >>= fun r => pure (frameResult r)) →
      (p >>= fun r => if r.retval ≠ Status.ok then pure ⟨r.retval, r.val.data⟩ else k' r) =
        (p >>= fun r => if r.retval ≠ Status.ok then pure r else k r) >>= fun r =>
          pure (frameResult r) := by
    intro p k k' hk
    rw [bind_assoc]
    refine bind_congr fun r => ?_
    by_cases hret : r.retval = Status.ok
    · simp only [hret, ne_eq, not_true_eq_false, if_false, hk r]
    · simp only [hret, ne_eq, not_false_eq_true, if_true, pure_bind, frameResult]
  unfold readFrame readParts readRest
  refine hguard _ _ _ fun r => hguard _ _ _ fun r => hguard _ _ _ fun r => ?_
  refine bind_congr fun r => ?_
  unfold frameResult
  split
  · rfl
  · split
    · rfl
    · rfl

theorem readPart_of_counted (part : Part) (d : Decoder) (h : part.len ≤ d.fifoCount.toNat) :
    readPart part d = takePart part d := by
  have hnot : ¬ d.fifoCount.toNat < part.len := Nat.not_lt.mpr h
  rw [readPart_eq, if_neg hnot, pure_bind, if_neg (not_not_intro rfl), if_neg hnot]

theorem sum_header2Lens (f : Frame) : f.header2Lens.sum = f.header2Bytes.length := by
  unfold Frame.header2Lens Frame.header2Bytes
  split
  · rw [List.length_ofFn, List.sum_singleton]
  · rfl

theorem sum_lens (heads : DmpData) (body : List Filled) :
    (body.flatMap (Filled.lens heads)).sum = (body.flatMap (Filled.wire heads)).length := by
  induction body with
  | nil => rfl
  | cons x body ih =>
    have hx : (x.lens heads).sum = (x.wire heads).length := by
      unfold Filled.lens Filled.wire
      split
      · rw [List.length_ofFn, List.sum_singleton]
      · rfl
    rw [List.flatMap_cons, List.flatMap_cons, List.sum_append, List.length_append, hx, ih]

theorem Frame.sum_lens (f : Frame) : f.lens.sum = f.encode.length := by
  unfold Frame.lens Frame.encode Frame.restLens Frame.afterHeader
  simp only [List.sum_append, List.length_append, List.sum_singleton, List.length_ofFn,
    sum_header2Lens, Imu.sum_lens]

theorem outcome_readRest {f : Frame} {rest : List Byte}
    (hexec : Prog.Exec fifo (readRest d) q tr r q') (hok : AllOk tr)
    (hcovered : d.fifoCount.toNat ≤ q.held.length) (hheader : d.data.header = f.header)
    (hstream : q.stream <+: f.afterHeader ++ rest) :
    Outcome f.restLens (f.fill d.data) d.fifoCount.toNat q r q' := by
  unfold Frame.afterHeader at hstream
  simp only [List.append_assoc] at hstream
  refine .guard hexec hok hcovered (fun t r₁ q₁ hstep hgood =>
    outcome_readHeader2 hstep hgood hcovered hheader hstream)
    fun t r₁ q₁ hcovered₁ hdata₁ hnext₁ hexec₁ hok₁ => ?_
  have hstream₁ := drop_prefix hstream (sum_header2Lens f)
  rw [← hnext₁] at hstream₁
  rw [← f.lists] at hexec₁
  refine .guard hexec₁ hok₁ hcovered₁ (fun t r₂ q₂ hstep hgood =>
    outcome_readPayloads f.known (hdata₁ ▸ ⟨rfl, rfl⟩) hstep hgood hcovered₁ hstream₁)
    fun t r₂ q₂ hcovered₂ hdata₂ hnext₂ hexec₂ hok₂ => ?_
  have hstream₂ := drop_prefix hstream₁ (sum_lens _ _)
  rw [← hnext₂] at hstream₂
  have hfooter := outcome_readPart hexec₂ hok₂ hcovered₂ hstream₂
  have hfill : footerPart.store (wordBytes f.footer) r₂.val.data = f.fill d.data := by
    rw [hdata₂, hdata₁]
    change { f.body.foldl Filled.storeTo (f.heads d.data) with
      footer := shortOf (wordBytes f.footer) } = _
    rw [shortOf_wordBytes]
    rfl
  rw [hfill] at hfooter
  exact hfooter

/-- A whole frame once its header is counted. -/
theorem outcome_readParts {f : Frame} {rest : List Byte}
    (hexec : Prog.Exec fifo (readParts d) q tr r q') (hok : AllOk tr)
    (hcovered : d.fifoCount.toNat ≤ q.held.length) (hheader : 2 ≤ d.fifoCount.toNat)
    (hstream : q.stream <+: f.encode ++ rest) :
    Outcome f.lens (f.fill d.data) d.fifoCount.toNat q r q' := by
  let cleared : Decoder := { d with data := { d.data with header := 0 } }
  unfold readParts at hexec
  rw [← readPart_of_counted headerPart cleared hheader] at hexec
  rw [Frame.encode, List.append_assoc] at hstream
  refine .guard hexec hok hcovered (fun t r₁ q₁ hstep hgood =>
    outcome_readPart hstep hgood hcovered hstream)
    fun t r₁ q₁ hcovered₁ hdata₁ hnext₁ hexec₁ hok₁ => ?_
  have hdata : r₁.val.data = { d.data with header := f.header } := by
    rw [hdata₁]
    change { d.data with header := shortOf (wordBytes f.header) } = _
    rw [shortOf_wordBytes]
  have hrest : q₁.stream <+: f.afterHeader ++ rest := by
    rw [hnext₁]
    exact drop_prefix hstream rfl
  have hfill : f.fill r₁.val.data = f.fill d.data := by
    rw [hdata]
    rfl
  have hout := outcome_readRest hexec₁ hok₁ hcovered₁ (congrArg DmpData.header hdata) hrest
  rw [hfill] at hout
  exact hout

/-! ## Calls -/

/-- A call on a stream that begins with the frame `f`, as far as the stream goes. -/
inductive CallOutcome (f : Frame) (data : DmpData) (q : Inflow Byte) (out : Read DmpData)
    (q' : Inflow Byte) : Prop
  | noData (hcount : q.count 256 < 2) (hout : out = ⟨Status.fifoNoDataAvail, data⟩)
      (hrest : q' = q.arrive.arrive)
  | incomplete (hcount : 2 ≤ q.count 256)
      (hdrain : q.arrive.arrive.drain 256 (q.count 256) f.lens = (none, q'))
      (hret : out.retval = Status.fifoIncompleteData)
  | complete (left : Nat) (hcount : 2 ≤ q.count 256)
      (hdrain : q.arrive.arrive.drain 256 (q.count 256) f.lens = (some left, q'))
      (hout : out = ⟨if left > 0 then Status.fifoMoreDataAvail else Status.ok, f.fill data⟩)

/-- The count at the start of a call decides whether it looks for a frame. -/
theorem exec_call_counted {pdev pdev' : Device} {out : Read DmpData}
    (hexec : Prog.Exec fifo ((readDmpData data).run pdev) q tr (out, pdev') q') (hok : AllOk tr)
    (havail : pdev.dmpFirmwareAvailable = true) :
    pdev' = pdev ∧
      if q.count 256 < 2 then out = ⟨Status.fifoNoDataAvail, data⟩ ∧ q' = q.arrive.arrive
      else ∃ d : Decoder, d.fifoCount.toNat = q.count 256 ∧ d.data = data ∧ ∃ t,
        Prog.Exec fifo (readFrame d) q.arrive.arrive t out q' ∧ AllOk t := by
  obtain ⟨rfl, fifoBytes, t, rfl, hcall⟩ := exec_readDmpData hexec
  refine ⟨rfl, ?_⟩
  rw [if_neg (not_eq_false_of_avail havail)] at hcall
  obtain ⟨garbage, counted, q₁, t₁, t₂, rfl, hcount, hframe⟩ := exec_readAvailable hcall
  simp only [allOk_cons, allOk_append] at hok
  obtain ⟨-, -, hok₁, hok₂⟩ := hok
  have hret := (succeeds_getFifoCount _).exec hcount hok₁
  obtain ⟨hcounted, rfl⟩ := exec_getFifoCount hcount hret
  rw [if_pos hret, hcounted] at hframe
  by_cases hshort : q.count 256 < 2
  · rw [if_pos hshort]
    exact (if_pos (c := q.count 256 < headerPart.len) hshort ▸ hframe).2
  · rw [if_neg hshort]
    exact ⟨_, hcounted, rfl, t₂, if_neg (c := q.count 256 < headerPart.len) hshort ▸ hframe, hok₂⟩

theorem exec_call {f : Frame} {rest : List Byte} {pdev pdev' : Device} {out : Read DmpData}
    (hexec : Prog.Exec fifo ((readDmpData data).run pdev) q tr (out, pdev') q') (hok : AllOk tr)
    (havail : pdev.dmpFirmwareAvailable = true) (hstream : q.stream <+: f.encode ++ rest) :
    pdev' = pdev ∧ CallOutcome f data q out q' := by
  obtain ⟨rfl, hcall⟩ := exec_call_counted hexec hok havail
  refine ⟨rfl, ?_⟩
  by_cases hshort : q.count 256 < 2
  · rw [if_pos hshort] at hcall
    exact .noData hshort hcall.1 hcall.2
  · rw [if_neg hshort] at hcall
    have hheader : 2 ≤ q.count 256 := Nat.le_of_not_lt hshort
    obtain ⟨d, hcount, rfl, t, hframe, hok₁⟩ := hcall
    have hcovered : q.count 256 ≤ q.arrive.arrive.held.length := Inflow.count_le 256
    have hsame : q.arrive.arrive.stream = q.stream := by
      rw [Inflow.stream_arrive, Inflow.stream_arrive]
    rw [readFrame_eq] at hframe
    obtain ⟨r, q₁, t₁, t₂, rfl, hparts, -, rfl, rfl⟩ := (Prog.exec_bind _ _ _ _ _ _ _).mp hframe
    cases outcome_readParts hparts (allOk_append t₁ t₂ |>.mp hok₁).1 (hcount ▸ hcovered)
      (hcount ▸ hheader) (hsame ▸ hstream) with
    | short hdrain hret =>
      refine .incomplete hheader (hcount ▸ hdrain) ?_
      rw [frameResult, if_pos (by rw [hret]; decide), hret]
    | taken hdrain hret hdata =>
      refine .complete r.val.fifoCount.toNat hheader (hcount ▸ hdrain) ?_
      rw [frameResult, if_neg (not_not_intro hret), hdata, hret]
      split
      · rfl
      · rfl

/-- A stream that holds all of the frame. -/
theorem exec_call_whole {f : Frame} {rest : List Byte} {pdev pdev' : Device} {out : Read DmpData}
    (hexec : Prog.Exec fifo ((readDmpData data).run pdev) q tr (out, pdev') q') (hok : AllOk tr)
    (havail : pdev.dmpFirmwareAvailable = true) (hstream : q.stream = f.encode ++ rest) :
    pdev' = pdev ∧ CallOutcome f data q out q' :=
  exec_call hexec hok havail ⟨[], by rw [hstream, List.append_nil]⟩

/-- The frames in the FIFO. -/
def stream (frames : List Frame) : List Byte := frames.flatMap Frame.encode

/-- A call of `inv_icm20948_read_dmp_data`: its argument and what it returned. -/
structure DmpCall where
  data : DmpData
  out : Read DmpData

/-- A call without bus failures, by a caller that owns the device structure. -/
def DmpStep (s : Device × Inflow Byte) (call : DmpCall) (s' : Device × Inflow Byte) : Prop :=
  ∃ tr, Prog.Exec fifo ((readDmpData call.data).run s.1) s.2 tr (call.out, s'.1) s'.2 ∧ AllOk tr

/-! ## Complete frames, and nothing more arrives -/

theorem Frame.length_encode_ge (f : Frame) : 4 ≤ f.encode.length := by
  simp only [Frame.encode, Frame.afterHeader, List.length_append, List.length_ofFn]
  omega

/-- A call that finds a frame takes it. -/
theorem quiet_call {f : Frame} {rest : List Byte} {pdev : Device} {call : DmpCall}
    {s' : Device × Inflow Byte} (hstep : DmpStep (pdev, q) call s')
    (havail : pdev.dmpFirmwareAvailable = true) (hquiet : q.coming = [])
    (hheld : q.held = f.encode ++ rest) :
    s'.1 = pdev ∧ s'.2.held = rest ∧ s'.2.coming = [] ∧
      call.out = ⟨if rest = [] then Status.ok else Status.fifoMoreDataAvail, f.fill call.data⟩ := by
  obtain ⟨tr, hexec, hok⟩ := hstep
  have hstream : q.stream = f.encode ++ rest := by
    rw [Inflow.stream, hheld, hquiet, List.append_nil]
  have hfits : f.lens.sum ≤ q.held.length := by
    rw [f.sum_lens, hheld, List.length_append]
    exact Nat.le_add_right _ _
  obtain ⟨q₂, hdrained, hheld₂, hcoming₂⟩ := Inflow.drain_count_of_quiet 256 hquiet hfits
  obtain ⟨hpdev, hout⟩ := exec_call_whole hexec hok havail hstream
  refine ⟨hpdev, ?_⟩
  cases hout with
  | noData hshort hout _ =>
    have hlength := f.length_encode_ge
    rw [Inflow.count_of_quiet hquiet, hheld, List.length_append] at hshort
    omega
  | incomplete _ hdrain _ =>
    rw [hdrained] at hdrain
    exact absurd (Prod.mk.inj hdrain).1 (Option.some_ne_none _)
  | complete left _ hdrain hout =>
    rw [hdrained] at hdrain
    obtain ⟨hsome, rfl⟩ := Prod.mk.inj hdrain
    obtain rfl := Option.some.inj hsome
    have hleft : q.held.length - f.lens.sum = rest.length := by
      rw [f.sum_lens, hheld, List.length_append, Nat.add_sub_cancel_left]
    refine ⟨?_, hcoming₂, ?_⟩
    · rw [hheld₂, hheld, f.sum_lens, List.drop_left]
    · rw [hout, hleft]
      cases rest with
      | nil => rfl
      | cons b rest => rfl

/-- A call that finds nothing says so. -/
theorem quiet_empty {pdev : Device} {call : DmpCall} {s' : Device × Inflow Byte}
    (hstep : DmpStep (pdev, q) call s') (havail : pdev.dmpFirmwareAvailable = true)
    (hquiet : q.coming = []) (hheld : q.held = []) :
    call.out = ⟨Status.fifoNoDataAvail, call.data⟩ := by
  obtain ⟨tr, hexec, hok⟩ := hstep
  have hcount : q.count 256 < 2 := by
    rw [Inflow.count_of_quiet hquiet, hheld]
    decide
  have hcall := (exec_call_counted hexec hok havail).2
  rw [if_pos hcount] at hcall
  exact hcall.1

theorem foldl_heads {body : List Filled} (hknown : ∀ x ∈ body, x.payload ∈ payloads)
    (data : DmpData) : SameHeads (body.foldl Filled.storeTo data) data := by
  induction body generalizing data with
  | nil => exact ⟨rfl, rfl⟩
  | cons x body ih =>
    have hx := storeTo_heads (hknown x List.mem_cons_self) data
    exact (ih (fun y hy => hknown y (List.mem_cons_of_mem x hy)) _).trans hx

theorem Frame.fill_heads (f : Frame) (data : DmpData) :
    (f.fill data).header = f.header ∧ (f.fill data).header2 = f.header2 :=
  foldl_heads f.known (f.heads data)

end

theorem length_wire_le (heads : DmpData) (body : List Filled) :
    (body.flatMap (Filled.wire heads)).length ≤
      ((body.map Filled.payload).map fun payload => payload.part.len).sum := by
  induction body with
  | nil => exact Nat.le_refl 0
  | cons x body ih =>
    have hx : (x.wire heads).length ≤ x.payload.part.len := by
      unfold Filled.wire
      split
      · rw [List.length_ofFn]
      · exact Nat.zero_le _
    rw [List.flatMap_cons, List.length_append, List.map_cons, List.map_cons, List.sum_cons]
    exact Nat.add_le_add hx ih

/-- The longest frame announces everything. -/
theorem Frame.length_encode_le (f : Frame) : f.encode.length ≤ 122 := by
  have hbody := length_wire_le (f.heads DmpData.zero) f.body
  have hall : (payloads.map fun payload => payload.part.len).sum = 116 := rfl
  have hheader2 : f.header2Bytes.length ≤ 2 := by
    unfold Frame.header2Bytes
    split
    · rw [List.length_ofFn]
    · exact Nat.zero_le 2
  rw [f.lists, hall] at hbody
  simp only [Frame.encode, Frame.afterHeader, List.length_append, List.length_ofFn]
  omega

theorem stream_eq_nil {frames : List Frame} : stream frames = [] ↔ frames = [] := by
  constructor
  · cases frames with
    | nil => exact fun _ => rfl
    | cons f frames =>
      intro h
      have hlength := f.length_encode_ge
      rw [stream, List.flatMap_cons, List.append_eq_nil_iff] at h
      rw [h.1] at hlength
      exact absurd hlength (by decide)
  · rintro rfl
    rfl

/-- The call `c` takes the frame `f`, which the frames `rest` follow. -/
structure Takes (f : Frame) (rest : List Frame) (c : Step (Device × Inflow Byte) DmpCall) :
    Prop where
  before : c.pre.2.held = f.encode ++ stream rest
  after : c.post.2.held = stream rest
  header : c.label.out.val.header = f.header
  header2 : c.label.out.val.header2 = f.header2
  footer : c.label.out.val.footer = f.footer
  retval : c.label.out.retval = if rest = [] then Status.ok else Status.fifoMoreDataAvail

/-- Calls by a caller that clears its structure before each, on a sensor that never fails. -/
def sensorCalls : Nat → Device × Inflow Byte → List (Step (Device × Inflow Byte) DmpCall)
  | 0, _ => []
  | n + 1, s =>
    let out := Prog.run sensor ((readDmpData DmpData.zero).run s.1) s.2
    ⟨s, ⟨DmpData.zero, out.1.1⟩, (out.1.2, out.2)⟩ :: sensorCalls n (out.1.2, out.2)

theorem length_sensorCalls (n : Nat) (s : Device × Inflow Byte) : (sensorCalls n s).length = n := by
  induction n generalizing s with
  | zero => rfl
  | succ n ih => exact congrArg (· + 1) (ih _)

theorem run_sensorCalls (n : Nat) {s : Device × Inflow Byte}
    (hcap : s.2.stream.length ≤ fifoCapacity) : ∃ s', Run DmpStep s (sensorCalls n s) s' := by
  induction n generalizing s with
  | zero => exact ⟨s, rfl⟩
  | succ n ih =>
    obtain ⟨hexec, hcap'⟩ := exec_sensor ((readDmpData DmpData.zero).run s.1) hcap
    obtain ⟨s', hrun⟩ := ih (s := (_, _)) hcap'
    exact ⟨s', rfl, ⟨_, hexec, Prog.allGood_trace good_sensor _ _⟩, hrun⟩

/-- Each call takes one frame and reports it; the call after the last finds nothing. -/
theorem calls_take_frames {pdev : Device} (havail : pdev.dmpFirmwareAvailable = true)
    {frames : List Frame} {schedule : List Nat}
    {calls : List (Step (Device × Inflow Byte) DmpCall)} {s' : Device × Inflow Byte}
    (hrun : Run DmpStep (pdev, ⟨stream frames, [], schedule⟩) calls s')
    (hlen : calls.length = frames.length + 1) :
    (∀ i (hi : i < frames.length), ∀ c ∈ calls[i]?, Takes frames[i] (frames.drop (i + 1)) c) ∧
      ∀ c ∈ calls[frames.length]?, c.label.out.retval = Status.fifoNoDataAvail := by
  suffices h : ∀ q : Inflow Byte, q.held = stream frames → q.coming = [] →
      Run DmpStep (pdev, q) calls s' → _ from h _ rfl rfl hrun
  clear hrun
  induction frames generalizing calls with
  | nil =>
    intro q hheld hquiet hrun
    obtain ⟨c, rfl⟩ := List.length_eq_one_iff.mp hlen
    obtain ⟨-, hstep, -⟩ := hrun
    refine ⟨fun i hi => absurd hi (Nat.not_lt_zero i), fun c' hc' => ?_⟩
    obtain rfl := Option.some.inj hc'
    rw [quiet_empty hstep havail hquiet hheld]
  | cons f frames ih =>
    intro q hheld hquiet hrun
    obtain ⟨c, calls, rfl⟩ : ∃ c rest, calls = c :: rest :=
      List.exists_cons_of_length_eq_add_one hlen
    obtain ⟨hpre, hstep, hafter⟩ := hrun
    rw [stream, List.flatMap_cons] at hheld
    obtain ⟨hpdev, hheld₁, hquiet₁, hout⟩ := quiet_call hstep havail hquiet hheld
    have hpost : c.post = (pdev, c.post.2) := by rw [← hpdev]
    rw [hpost] at hafter
    obtain ⟨hframes, hlast⟩ := ih (Nat.succ.inj hlen) c.post.2 hheld₁ hquiet₁ hafter
    refine ⟨fun i hi c' hc' => ?_, hlast⟩
    cases i with
    | zero =>
      obtain rfl := Option.some.inj hc'
      obtain ⟨hheader, hheader2⟩ := f.fill_heads c.label.data
      refine ⟨by rw [hpre, hheld]; rfl, hheld₁, ?_, ?_, ?_, ?_⟩
      · rw [hout, hheader]
        rfl
      · rw [hout, hheader2]
        rfl
      · rw [hout]
        rfl
      · rw [hout]
        exact if_congr stream_eq_nil rfl rfl
    | succ i => exact hframes i (Nat.lt_of_succ_lt_succ hi) c' hc'

/-- A frame with a second header and every payload, and one with nothing in it. -/
theorem calls_take_frames_two :
    let pdev : Device := ⟨true, true, 255, 0, 0, 0, 0, 0, 0, 0, 0, 0, 0, 0⟩
    let full := Frame.ofBytes 0xFFFF 0xFFFF (fun _ i => BitVec.ofNat 8 i) 3 (by decide)
    let empty := Frame.ofBytes 0 0 (fun _ _ => 0) 4 (fun _ => rfl)
    let calls := sensorCalls 3 (pdev, ⟨stream [full, empty], [], []⟩)
    (∀ i (hi : i < 2), ∀ c ∈ calls[i]?,
      Takes ([full, empty].get ⟨i, hi⟩) ([full, empty].drop (i + 1)) c) ∧
    ∀ c ∈ calls[2]?, c.label.out.retval = Status.fifoNoDataAvail := by
  intro pdev full empty calls
  have hcap : (stream [full, empty]).length ≤ fifoCapacity := by
    have hfull := full.length_encode_le
    have hempty := empty.length_encode_le
    simp only [stream, List.flatMap_cons, List.flatMap_nil, List.length_append, List.length_nil,
      fifoCapacity]
    omega
  obtain ⟨s', hrun⟩ := run_sensorCalls 3 (s := (pdev, ⟨stream [full, empty], [], []⟩))
    (by rwa [Inflow.stream, List.append_nil])
  exact calls_take_frames rfl hrun (length_sensorCalls 3 _)

end SimuSound.Imu
