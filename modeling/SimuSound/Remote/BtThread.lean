import Mathlib.Data.List.TakeWhile
import SimuSound.Reasoning.Framing

/-!
# BtThread — the line reader of `BTRemote`

`bt_thread` reads the serial port in chunks of at most 2048 bytes, keeps the printable characters,
and appends a line to `data_in` at every newline; the unfinished line stays in `str` across reads.
-/

namespace SimuSound.Remote

open Reasoning

abbrev Byte := BitVec 8
abbrev Line := List Byte

def newline : Byte := 0x0A

/-- What one `read(fd, buf, 2048)` gives: a failure, or at most 2048 bytes. -/
inductive ReadResult
  | failed
  | bytes (buf : List Byte) (fits : buf.length ≤ 2048)

/-- `buf[0 .. read_bytes)`; the loop over a failed read runs zero times. -/
def ReadResult.buf : ReadResult → List Byte
  | .failed => []
  | .bytes buf _ => buf

/-- `c >= 0x20 && c < 0x7f`, with the same answer for a signed and an unsigned `char`. -/
def printable (c : Byte) : Bool := 0x20 ≤ c && c < 0x7f

/-- The inner loop of `bt_thread`: `str` and `temp_strs` after the bytes of one read. -/
def scanBuf : List Byte → Line → List Line → Line × List Line
  | [], str, tempStrs => (str, tempStrs)
  | c :: rest, str, tempStrs =>
    if c = newline then scanBuf rest [] (tempStrs ++ [str])
    else if c = 0 then (str, tempStrs)
    else if printable c then scanBuf rest (str ++ [c]) tempStrs
    else scanBuf rest str tempStrs

/-- The partial line and the mailbox. -/
structure BtThread where
  str : Line
  dataIn : List Line
  deriving DecidableEq

def BtThread.start : BtThread := ⟨[], []⟩

/-- One turn of the outer loop; `temp_strs` is empty at its start. -/
def BtThread.turn (s : BtThread) (r : ReadResult) : BtThread :=
  let (str, tempStrs) := scanBuf r.buf s.str []
  ⟨str, s.dataIn ++ tempStrs⟩

def BtThread.run (s : BtThread) (reads : List ReadResult) : BtThread := reads.foldl turn s

/-! ## The reader as a framer -/

/-- Printable characters and newlines, what a line is made of. -/
def visible (c : Byte) : Bool := c == newline || printable c

/-- The bytes of one read that count: the visible ones before its first NUL. -/
def kept (buf : List Byte) : List Byte := (buf.takeWhile (· ≠ 0)).filter visible

/-- The bytes of a sequence of reads that count. -/
def keptOf (reads : List ReadResult) : List Byte := reads.flatMap fun r => kept r.buf

def BtThread.framer (s : BtThread) : Framer Byte := ⟨s.str, s.dataIn⟩

theorem BtThread.framer_inj (s t : BtThread) : s.framer = t.framer ↔ s = t := by
  constructor
  · intro h
    injection h with hstr hdata
    cases s
    cases t
    exact congrArg₂ BtThread.mk hstr hdata
  · exact congrArg _

theorem kept_cons_of_ne (c : Byte) (rest : List Byte) (hnul : c ≠ 0) :
    kept (c :: rest) = if visible c then c :: kept rest else kept rest := by
  unfold kept
  rw [List.takeWhile_cons_of_pos (by simpa using hnul), List.filter_cons]

theorem kept_newline (rest : List Byte) : kept (newline :: rest) = newline :: kept rest := by
  rw [kept_cons_of_ne _ _ (by decide), if_pos (by decide)]

theorem kept_nul (rest : List Byte) : kept (0 :: rest) = [] := by
  unfold kept
  rw [List.takeWhile_cons_of_neg (by decide)]
  rfl

theorem kept_printable (c : Byte) (rest : List Byte) (hnul : c ≠ 0) (hc : printable c = true) :
    kept (c :: rest) = c :: kept rest := by
  have hvis : visible c = true := by
    unfold visible
    rw [hc, Bool.or_true]
  rw [kept_cons_of_ne c rest hnul, if_pos hvis]

theorem kept_dropped (c : Byte) (rest : List Byte) (hnl : c ≠ newline) (hnul : c ≠ 0)
    (hc : printable c = false) : kept (c :: rest) = kept rest := by
  have hvis : ¬ visible c = true := by
    unfold visible
    rw [hc, Bool.or_false, beq_iff_eq]
    exact hnl
  rw [kept_cons_of_ne c rest hnul, if_neg hvis]

/-- Scanning a read is feeding the framer the bytes that count, whatever was emitted before. -/
theorem scanBuf_feed (buf : List Byte) (str : Line) (dataIn tempStrs : List Line) :
    (⟨(scanBuf buf str tempStrs).1, dataIn ++ (scanBuf buf str tempStrs).2⟩ : Framer Byte) =
      Framer.feed newline ⟨str, dataIn ++ tempStrs⟩ (kept buf) := by
  -- on the bytes left; `temp_strs` grows, so it is carried along
  induction buf generalizing str tempStrs with
  | nil => rfl
  | cons c rest ih =>
    unfold scanBuf
    by_cases hnl : c = newline
    · subst hnl
      rw [if_pos rfl, ih, kept_newline]
      change _ = Framer.feed newline (Framer.push newline _ newline) _
      rw [Framer.push, if_pos rfl, List.append_assoc]
    · rw [if_neg hnl]
      by_cases hnul : c = 0
      · -- `buf[i] == 0` ends the scan of this read
        subst hnul
        rw [if_pos rfl, kept_nul]
        rfl
      · rw [if_neg hnul]
        by_cases hc : printable c = true
        · rw [if_pos hc, ih, kept_printable c rest hnul hc]
          change _ = Framer.feed newline (Framer.push newline _ c) _
          rw [Framer.push, if_neg hnl]
        · rw [if_neg hc, ih, kept_dropped c rest hnl hnul ((Bool.not_eq_true _).mp hc)]

theorem BtThread.framer_turn (s : BtThread) (r : ReadResult) :
    (s.turn r).framer = s.framer.feed newline (kept r.buf) := by
  have h := scanBuf_feed r.buf s.str s.dataIn []
  rw [List.append_nil] at h
  exact h

/-- A run of the reader is one feed of everything that counts. -/
theorem BtThread.framer_run (s : BtThread) (reads : List ReadResult) :
    (s.run reads).framer = s.framer.feed newline (keptOf reads) := by
  induction reads generalizing s with
  | nil => rfl
  | cons r reads ih =>
    change ((s.turn r).run reads).framer = _
    rw [ih, framer_turn]
    unfold keptOf
    rw [List.flatMap_cons, Framer.feed_append]

/-- Without NULs the bytes that count are those of the whole stream, however it was cut. -/
theorem keptOf_of_no_nul (reads : List ReadResult) (h : ∀ r ∈ reads, 0 ∉ r.buf) :
    keptOf reads = (reads.flatMap ReadResult.buf).filter visible := by
  induction reads with
  | nil => rfl
  | cons r reads ih =>
    have hr : r.buf.takeWhile (· ≠ 0) = r.buf := by
      rw [List.takeWhile_eq_self_iff]
      intro c hc
      have hne : c ≠ 0 := fun he => h r List.mem_cons_self (he ▸ hc)
      exact decide_eq_true hne
    have hrest := ih fun r' hr' => h r' (List.mem_cons_of_mem r hr')
    unfold keptOf at hrest ⊢
    rw [List.flatMap_cons, List.flatMap_cons, List.filter_append, hrest]
    unfold kept
    rw [hr]

/-! ## Chunk independence -/

/-- The stream that a sequence of reads delivers. -/
def stream (reads : List ReadResult) : List Byte := reads.flatMap ReadResult.buf

/-- The same three bytes, once in one read and once cut after the NUL, lead to different lines. -/
theorem nul_cut_changes_lines :
    ¬ ∀ (s : BtThread) (reads reads' : List ReadResult), stream reads = stream reads' →
      s.run reads = s.run reads' := by
  intro h
  have hcut := h .start [.bytes [0, 0x61, newline] (by decide)]
    [.bytes [0] (by decide), .bytes [0x61, newline] (by decide)] (by decide)
  exact absurd hcut (by decide)

/-- Two sequences of reads leave the reader in the same state exactly when the bytes that count are
the same; for two cuttings of one stream without NULs they always are. -/
theorem run_chunk_independent :
    (∀ (s : BtThread) (reads reads' : List ReadResult),
      s.run reads = s.run reads' ↔ keptOf reads = keptOf reads') ∧
    (∀ (s : BtThread) (reads reads' : List ReadResult), stream reads = stream reads' →
      0 ∉ stream reads → s.run reads = s.run reads') := by
  have hiff : ∀ (s : BtThread) (reads reads' : List ReadResult),
      s.run reads = s.run reads' ↔ keptOf reads = keptOf reads' := by
    intro s reads reads'
    rw [← BtThread.framer_inj, BtThread.framer_run, BtThread.framer_run, Framer.feed_inj]
  refine ⟨hiff, ?_⟩
  intro s reads reads' hstream hnul
  have hno : ∀ (rs : List ReadResult), 0 ∉ stream rs → ∀ r ∈ rs, 0 ∉ r.buf :=
    fun rs hrs r hr hmem => hrs (List.mem_flatMap.mpr ⟨r, hr, hmem⟩)
  rw [hiff, keptOf_of_no_nul reads (hno reads hnul),
    keptOf_of_no_nul reads' (hno reads' (hstream ▸ hnul))]
  exact congrArg _ hstream

theorem run_chunk_independent_ab :
    BtThread.start.run [.bytes [0x61, 0x62, newline] (by decide)] =
      BtThread.start.run [.bytes [0x61] (by decide), .failed, .bytes [0x62, newline] (by decide)] :=
  run_chunk_independent.2 .start _ _ (by decide) (by decide)

end SimuSound.Remote
