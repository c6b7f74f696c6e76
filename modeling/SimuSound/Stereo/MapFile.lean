import SimuSound.Reasoning.ErrorReporting
import SimuSound.Reasoning.Transition
import Mathlib.Algebra.Group.Int.Defs
import Mathlib.Data.Finset.Lattice.Fold
import Mathlib.Order.Lattice.Nat

/-!
# MapFile — reading a calibration map

A calibration map is a file of floats, `read_float_file_into_array` reads a whole one.  It compares
the number of floats in the file with the number expected, and returns at the first failure; only
after the last check does it close the file.
-/

namespace SimuSound.Stereo

open Reasoning

abbrev Byte := BitVec 8

/-- The bits of a `float`. -/
abbrev FloatBits := BitVec 32

/-! ## Files and streams -/

/-- How wide `long` and `size_t` are. -/
inductive DataModel
  | ilp32 | lp64

def DataModel.longBits : DataModel → ℕ
  | ilp32 => 32
  | lp64 => 64

/-- A `long` converted to `size_t`. -/
def DataModel.toSize (d : DataModel) (n : Int) : ℕ := (n % 2 ^ d.longBits).toNat

/-- The contents of a file; its length is an offset, which is a `long`. -/
structure File (d : DataModel) where
  bytes : List Byte
  fits : bytes.length < 2 ^ (d.longBits - 1)

/-- The floats of a file in file order, little-endian; up to three bytes at the end are none. -/
def floatsOf : List Byte → List FloatBits
  | b₀ :: b₁ :: b₂ :: b₃ :: rest => (b₃ ++ b₂ ++ b₁ ++ b₀) :: floatsOf rest
  | _ => []

theorem exists_four_of_le {α : Type} {l : List α} (h : 4 ≤ l.length) :
    ∃ a b c e rest, l = a :: b :: c :: e :: rest := by
  match l with
  | a :: b :: c :: e :: rest => exact ⟨a, b, c, e, rest, rfl⟩

theorem length_floatsOf (bytes : List Byte) : (floatsOf bytes).length = bytes.length / 4 := by
  fun_induction floatsOf bytes with
  | case1 b₀ b₁ b₂ b₃ rest ih =>
    simp only [List.length_cons, ih]
    omega
  | case2 bytes hshort =>
    have hlt : bytes.length < 4 := by
      by_contra hle
      obtain ⟨b₀, b₁, b₂, b₃, rest, rfl⟩ := exists_four_of_le (Nat.not_lt.mp hle)
      exact hshort b₀ b₁ b₂ b₃ rest rfl
    rw [List.length_nil]
    omega

/-- What `fread` returns, and what it has stored in the buffer: after a short read there can be a
part of one more element. -/
structure Items where
  count : ℕ
  stored : List FloatBits

/-- The calls of the C library; `fseekEnd` is `fseek(file, 0L, SEEK_END)`, and `fread` reads
elements of the size of a `float`. -/
inductive StdioEvent
  | fopen (path : String)
  | fseekEnd (file : ℕ)
  | ftell (file : ℕ)
  | rewind (file : ℕ)
  | fread (file n : ℕ)
  | fclose (file : ℕ)

@[reducible] def StdioEvent.Resp : StdioEvent → Type
  | .fopen _ => Option ℕ
  | .fseekEnd _ => Int
  | .ftell _ => Int
  | .rewind _ => Unit
  | .fread _ _ => Items
  | .fclose _ => Int

abbrev Io := Prog StdioEvent StdioEvent.Resp

/-- The files, the streams that are open, and what each reads from which position on. -/
structure Stdio (d : DataModel) where
  files : String → Option (File d)
  opened : Finset ℕ
  stream : ℕ → List Byte × ℕ

abbrev StdioTrace (d : DataModel) := List (Obs (Stdio d) StdioEvent StdioEvent.Resp)

variable {d : DataModel}

def Stdio.seek (s : Stdio d) (file pos : ℕ) : Stdio d :=
  { s with stream := Function.update s.stream file ((s.stream file).1, pos) }

def Stdio.openStream (s : Stdio d) (file : ℕ) (contents : File d) : Stdio d :=
  { s with opened := insert file s.opened
           stream := Function.update s.stream file (contents.bytes, 0) }

section
variable (s : Stdio d) (file pos : ℕ) (contents : File d)

@[simp] theorem Stdio.stream_seek :
    (s.seek file pos).stream file = ((s.stream file).1, pos) := Function.update_self _ _ _

@[simp] theorem Stdio.opened_seek : (s.seek file pos).opened = s.opened := rfl

@[simp] theorem Stdio.files_seek : (s.seek file pos).files = s.files := rfl

@[simp] theorem Stdio.stream_openStream :
    (s.openStream file contents).stream file = (contents.bytes, 0) := Function.update_self _ _ _

@[simp] theorem Stdio.opened_openStream :
    (s.openStream file contents).opened = insert file s.opened := rfl

@[simp] theorem Stdio.files_openStream : (s.openStream file contents).files = s.files := rfl

end

/-- The C library.  A file can always fail to open, and every operation can fail; `rewind` cannot
report that, and after `fclose` the stream is closed in any case. -/
def stdio (d : DataModel) : Env (Stdio d) StdioEvent StdioEvent.Resp
  | s, .fopen _, none, s' => s' = s
  | s, .fopen path, some file, s' =>
    ∃ contents, s.files path = some contents ∧ file ∉ s.opened ∧ s' = s.openStream file contents
  | s, .fseekEnd file, (ret : Int), s' =>
    s' = if ret = 0 then s.seek file (s.stream file).1.length else s
  | s, .ftell file, (ret : Int), s' => (ret = -1 ∨ ret = (s.stream file).2) ∧ s' = s
  | s, .rewind file, _, s' => s' = s.seek file 0
  | s, .fread file n, (r : Items), s' =>
    r.count ≤ n ∧ r.count ≤ (floatsOf ((s.stream file).1.drop (s.stream file).2)).length ∧
      r.stored.length ≤ n ∧
      r.stored.take r.count =
        (floatsOf ((s.stream file).1.drop (s.stream file).2)).take r.count ∧
      ∃ pos, s' = s.seek file pos
  | s, .fclose file, _, s' => s' = { s with opened := s.opened.erase file }

/-- The call did not fail. -/
def Good : (e : StdioEvent) → e.Resp → Prop
  | .fopen _, (file : Option ℕ) => file ≠ none
  | .fseekEnd _, (ret : Int) => ret = 0
  | .ftell _, (ret : Int) => ret ≠ -1
  | .rewind _, _ => True
  | .fread _ n, (r : Items) => r.count = n
  | .fclose _, _ => True

instance : (e : StdioEvent) → (r : e.Resp) → Decidable (Good e r)
  | .fopen _, (file : Option ℕ) => inferInstanceAs (Decidable (file ≠ none))
  | .fseekEnd _, (ret : Int) => inferInstanceAs (Decidable (ret = 0))
  | .ftell _, (ret : Int) => inferInstanceAs (Decidable (ret ≠ -1))
  | .rewind _, _ => .isTrue trivial
  | .fread _ n, (r : Items) => inferInstanceAs (Decidable (r.count = n))
  | .fclose _, _ => .isTrue trivial

abbrev AllOk (tr : StdioTrace d) : Prop := Prog.AllGood Good tr

instance (tr : StdioTrace d) : Decidable (AllOk tr) :=
  inferInstanceAs (Decidable (∀ o ∈ tr, Good o.event o.resp))

/-! ## The reader -/

/-- `read_float_file_into_array`: what it returns, and the buffer afterwards. -/
def readFloatFileIntoArray (d : DataModel) (len : Int) (path : String) (buf : List FloatBits) :
    Io (Int × List FloatBits) := do
  let file ← (Prog.perform (StdioEvent.fopen path) : Io (Option ℕ))
  match file with
  | none => pure (1, buf)
  | some file =>
    let ret ← (Prog.perform (StdioEvent.fseekEnd file) : Io Int)
    if ret ≠ 0 then return (1, buf)
    let pos ← (Prog.perform (StdioEvent.ftell file) : Io Int)
    -- `sizeof` makes this a division of `size_t`
    let sz : Int := (d.toSize pos / 4 : ℕ)
    if sz ≠ len then return (1, buf)
    let _ ← (Prog.perform (StdioEvent.rewind file) : Io Unit)
    let r ← (Prog.perform (StdioEvent.fread file (d.toSize len)) : Io Items)
    let buf := r.stored ++ buf.drop r.stored.length
    let ret : Int := r.count
    if ret ≠ len then return (1, buf)
    let _ ← (Prog.perform (StdioEvent.fclose file) : Io Int)
    return (0, buf)

/-- What the complete reads have stored. -/
def completeReads (tr : StdioTrace d) : List (List FloatBits) :=
  tr.filterMap fun o => match o with
    | ⟨_, .fread _ n, r⟩ => if r.count = n then some r.stored else none
    | _ => none

/-- The call opened a file. -/
def Opens : (e : StdioEvent) → e.Resp → Prop
  | .fopen _, (file : Option ℕ) => file ≠ none
  | _, _ => False

def Opened (tr : StdioTrace d) : Prop := ∃ o ∈ tr, Opens o.event o.resp

/-- How a call of the reader goes. -/
inductive ReadOutcome (len : Int) (path : String) (buf : List FloatBits) (s : Stdio d) :
    StdioTrace d → Int × List FloatBits → Stdio d → Prop
  | notOpened : ReadOutcome len path buf s [⟨s, .fopen path, none⟩] (1, buf) s
  /-- Something after `fopen` failed, or the file has another size. -/
  | leftOpen (file : ℕ) (contents : File d) (t : StdioTrace d) (buf' : List FloatBits)
      (s' : Stdio d)
      (hcontents : s.files path = some contents) (hnew : file ∉ s.opened)
      (hbad : AllOk t → ((contents.bytes.length / 4 : ℕ) : Int) ≠ len)
      (hreads : completeReads t = []) (hfiles : s'.files = s.files)
      (hopened : s'.opened = insert file s.opened) :
      ReadOutcome len path buf s (⟨s, .fopen path, some file⟩ :: t) (1, buf') s'
  | read (file : ℕ) (contents : File d) (t : StdioTrace d) (s' : Stdio d)
      (hcontents : s.files path = some contents)
      (hlen : ((contents.bytes.length / 4 : ℕ) : Int) = len) (hok : AllOk t)
      (hreads : completeReads t = [floatsOf contents.bytes]) (hfiles : s'.files = s.files)
      (hopened : s'.opened = s.opened) :
      ReadOutcome len path buf s (⟨s, .fopen path, some file⟩ :: t)
        (0, floatsOf contents.bytes ++ buf.drop (floatsOf contents.bytes).length) s'

theorem toSize_of_lt {n : ℕ} (h : n < 2 ^ d.longBits) : d.toSize n = n := by
  unfold DataModel.toSize
  have hmod : (n : Int) % 2 ^ d.longBits = n := by
    apply Int.emod_eq_of_lt (Int.natCast_nonneg n)
    exact_mod_cast h
  rw [hmod, Int.toNat_natCast]

/-- A file of as many floats as the length `ftell` fails with stands for does not exist. -/
theorem length_lt_toSize_neg_one (contents : File d) :
    contents.bytes.length / 4 < d.toSize (-1) / 4 := by
  cases d with
  | ilp32 =>
    have hfits : contents.bytes.length < 2 ^ 31 := contents.fits
    have hsize : DataModel.ilp32.toSize (-1) = 2 ^ 32 - 1 := by decide
    rw [hsize]
    omega
  | lp64 =>
    have hfits : contents.bytes.length < 2 ^ 63 := contents.fits
    have hsize : DataModel.lp64.toSize (-1) = 2 ^ 64 - 1 := by decide
    rw [hsize]
    omega

theorem size_lt (d : DataModel) (pos : Int) : d.toSize pos / 4 < 2 ^ d.longBits := by
  have hpos : (0 : Int) < 2 ^ d.longBits := Int.pow_pos (by decide)
  have hlt : pos % 2 ^ d.longBits < 2 ^ d.longBits := Int.emod_lt_of_pos pos hpos
  have hnat : d.toSize pos < 2 ^ d.longBits := by
    unfold DataModel.toSize
    rw [Int.toNat_lt (Int.emod_nonneg pos (Int.ne_of_gt hpos))]
    exact_mod_cast hlt
  omega

theorem toSize_length (contents : File d) :
    d.toSize (contents.bytes.length : ℕ) = contents.bytes.length := by
  apply toSize_of_lt
  exact Nat.lt_of_lt_of_le contents.fits (Nat.pow_le_pow_right (by decide) (Nat.sub_le _ _))

theorem completeReads_cons_of_ne {o : Obs (Stdio d) StdioEvent StdioEvent.Resp} {t : StdioTrace d}
    (h : ∀ file n, o.event ≠ .fread file n) : completeReads (o :: t) = completeReads t := by
  obtain ⟨s, e, r⟩ := o
  unfold completeReads
  cases e with
  | fread file n => exact absurd rfl (h file n)
  | fopen path => rfl
  | fseekEnd file => rfl
  | ftell file => rfl
  | rewind file => rfl
  | fclose file => rfl

/-- The reader from `rewind` on. -/
def readContents (d : DataModel) (len : Int) (buf : List FloatBits) (file : ℕ) :
    Io (Int × List FloatBits) := do
  let _ ← (Prog.perform (StdioEvent.rewind file) : Io Unit)
  let r ← (Prog.perform (StdioEvent.fread file (d.toSize len)) : Io Items)
  let buf := r.stored ++ buf.drop r.stored.length
  let ret : Int := r.count
  if ret ≠ len then return (1, buf)
  let _ ← (Prog.perform (StdioEvent.fclose file) : Io Int)
  return (0, buf)

theorem readFloatFileIntoArray_eq (d : DataModel) (len : Int) (path : String)
    (buf : List FloatBits) :
    readFloatFileIntoArray d len path buf =
      (Prog.perform (StdioEvent.fopen path) : Io (Option ℕ)) >>= fun
        | none => pure (1, buf)
        | some file =>
          (Prog.perform (StdioEvent.fseekEnd file) : Io Int) >>= fun ret =>
            if ret ≠ 0 then pure (1, buf)
            else (Prog.perform (StdioEvent.ftell file) : Io Int) >>= fun pos =>
              if ((d.toSize pos / 4 : ℕ) : Int) ≠ len then pure (1, buf)
              else readContents d len buf file := rfl

section
variable {s s' : Stdio d} {tr : StdioTrace d} {r : Int × List FloatBits} {buf : List FloatBits}

/-- A short read leaves the stream open; a complete one stores the floats and closes it. -/
theorem exec_readContents {file n : ℕ} {bytes : List Byte} (hn : n < 2 ^ d.longBits)
    (hbytes : (s.stream file).1 = bytes)
    (hexec : Prog.Exec (stdio d) (readContents d n buf file) s tr r s') :
    s'.files = s.files ∧
      ((r.1 = 1 ∧ s'.opened = s.opened ∧ completeReads tr = [] ∧ ¬ AllOk tr) ∨
        (n ≤ bytes.length / 4 ∧ r = (0, (floatsOf bytes).take n ++ buf.drop n) ∧
          s'.opened = s.opened.erase file ∧ completeReads tr = [(floatsOf bytes).take n] ∧
          AllOk tr)) := by
  obtain ⟨_, s₁, t₁, hrewind, rfl, hexec₁⟩ := Prog.exec_perform_bind.mp hexec
  have hrewind : s₁ = s.seek file 0 := hrewind
  obtain ⟨items, s₂, t₂, hfread, rfl, hexec₂⟩ := Prog.exec_perform_bind.mp hexec₁
  obtain ⟨hcount, havail, hstored, htake, pos, hs₂⟩ := (hfread :
    items.count ≤ d.toSize n ∧
      items.count ≤ (floatsOf ((s₁.stream file).1.drop (s₁.stream file).2)).length ∧
      items.stored.length ≤ d.toSize n ∧ _ ∧ ∃ pos, s₂ = s₁.seek file pos)
  rw [hrewind, Stdio.stream_seek, hbytes, List.drop_zero] at havail htake
  rw [toSize_of_lt hn] at hstored
  have hopened : s₂.opened = s.opened := by rw [hs₂, hrewind, Stdio.opened_seek, Stdio.opened_seek]
  have hfiles : s₂.files = s.files := by rw [hs₂, hrewind, Stdio.files_seek, Stdio.files_seek]
  rw [Prog.exec_return_if] at hexec₂
  by_cases hall : (items.count : Int) = n
  · rw [if_neg (not_not_intro hall)] at hexec₂
    -- all floats were delivered, and the stream is closed
    have hall : items.count = n := by exact_mod_cast hall
    rw [hall] at havail htake
    have hitems : items.stored = (floatsOf bytes).take n := by
      rw [← htake, List.take_of_length_le hstored]
    have hlength : items.stored.length = n := by
      rw [hitems, List.length_take, Nat.min_eq_left havail]
    rw [length_floatsOf] at havail
    obtain ⟨_, s₃, t₃, hfclose, rfl, rfl, rfl, rfl⟩ := Prog.exec_perform_bind.mp hexec₂
    have hfclose : s' = { s₂ with opened := s₂.opened.erase file } := hfclose
    refine ⟨?_, Or.inr ⟨havail, ?_, ?_, ?_, ?_⟩⟩
    · rw [hfclose]
      exact hfiles
    · rw [hlength, hitems]
    · rw [hfclose, ← hopened]
    · simp [completeReads, hall, toSize_of_lt hn, hitems]
    · simp only [Prog.allGood_cons]
      exact ⟨trivial, hall.trans (toSize_of_lt hn).symm, trivial, Prog.allGood_nil⟩
  · rw [if_pos hall] at hexec₂
    -- a short read returns without `fclose`
    obtain ⟨rfl, rfl, rfl⟩ := hexec₂
    have hshort : items.count ≠ d.toSize n := by
      intro h
      apply hall
      rw [h, toSize_of_lt hn]
    refine ⟨hfiles, Or.inl ⟨rfl, hopened, ?_, ?_⟩⟩
    · simp [completeReads, hshort]
    · intro hok
      simp only [Prog.allGood_cons] at hok
      exact hshort hok.2.1

/-- The spec of the reader. -/
theorem readOutcome_of_exec {len : Int} {path : String}
    (hexec : Prog.Exec (stdio d) (readFloatFileIntoArray d len path buf) s tr r s') :
    ReadOutcome len path buf s tr r s' := by
  rw [readFloatFileIntoArray_eq] at hexec
  obtain ⟨file, s₁, t₁, hopen, rfl, hexec₁⟩ := Prog.exec_perform_bind.mp hexec
  cases file with
  | none =>
    have hs₁ : s₁ = s := hopen
    obtain ⟨rfl, rfl, rfl⟩ := hexec₁
    rw [hs₁]
    exact .notOpened
  | some file =>
    obtain ⟨contents, hcontents, hnew, hs₁⟩ := hopen
    obtain ⟨ret, s₂, t₂, hseek, rfl, hexec₂⟩ := Prog.exec_perform_bind.mp hexec₁
    have hseek : s₂ = if ret = 0 then s₁.seek file (s₁.stream file).1.length else s₁ := hseek
    rw [Prog.exec_return_if] at hexec₂
    by_cases hret : ret = 0
    swap
    · -- the stream is left where it was, and open
      rw [if_pos hret] at hexec₂
      rw [if_neg hret, hs₁] at hseek
      obtain ⟨rfl, rfl, rfl⟩ := hexec₂
      rw [hseek]
      refine .leftOpen file contents _ buf _ hcontents hnew ?_ rfl rfl rfl
      exact fun hok => absurd (Prog.allGood_cons _ _ |>.mp hok).1 hret
    rw [if_neg (not_not_intro hret)] at hexec₂
    rw [if_pos hret, hs₁, Stdio.stream_openStream] at hseek
    obtain ⟨pos, s₃, t₃, ⟨hpos, hs₃⟩, rfl, hexec₃⟩ := Prog.exec_perform_bind.mp hexec₂
    rw [hseek, Stdio.stream_seek] at hpos
    rw [hseek] at hs₃
    rw [Prog.exec_return_if] at hexec₃
    by_cases hsz : ((d.toSize pos / 4 : ℕ) : Int) = len
    · rw [if_neg (not_not_intro hsz), ← hsz] at hexec₃
      have hbytes : (s₃.stream file).1 = contents.bytes := by
        rw [hs₃, Stdio.stream_seek, Stdio.stream_openStream]
      obtain ⟨hfiles, ⟨hr, hopened, hreads, hbad⟩ | ⟨hn, rfl, hopened, hreads, hok⟩⟩ :=
        exec_readContents (size_lt d pos) hbytes hexec₃
      · rw [show r = (1, r.2) from Prod.ext hr rfl]
        refine .leftOpen file contents _ _ _ hcontents hnew ?_ hreads ?_ ?_
        · intro hok
          simp only [Prog.allGood_cons] at hok
          exact absurd hok.2.2 hbad
        · rw [hfiles, hs₃, Stdio.files_seek, Stdio.files_openStream]
        · rw [hopened, hs₃, Stdio.opened_seek, Stdio.opened_openStream]
      · -- there is no file as long as a failed `ftell` says
        have hgood : pos ≠ -1 := by
          intro h
          have hlt := length_lt_toSize_neg_one contents
          rw [h] at hn
          omega
        have hsize : d.toSize pos / 4 = (floatsOf contents.bytes).length := by
          rw [hpos.resolve_left hgood, toSize_length, length_floatsOf]
        rw [hsize, List.take_length] at hreads ⊢
        rw [hsize, length_floatsOf] at hsz
        refine .read file contents _ _ hcontents hsz ?_ hreads ?_ ?_
        · simp only [Prog.allGood_cons]
          exact ⟨hret, hgood, hok⟩
        · rw [hfiles, hs₃, Stdio.files_seek, Stdio.files_openStream]
        · rw [hopened, hs₃, Stdio.opened_seek, Stdio.opened_openStream, Finset.erase_insert hnew]
    · rw [if_pos hsz] at hexec₃
      -- the file has another size, or `ftell` failed
      obtain ⟨rfl, rfl, rfl⟩ := hexec₃
      refine .leftOpen file contents _ buf _ hcontents hnew ?_ rfl ?_ ?_
      · intro hok hlen
        simp only [Prog.allGood_cons] at hok
        apply hsz
        rw [← hlen, hpos.resolve_left hok.2.1, toSize_length]
      · rw [hs₃, Stdio.files_seek, Stdio.files_openStream]
      · rw [hs₃, Stdio.opened_seek, Stdio.opened_openStream]

end

/-! ## A C library on which nothing fails -/

/-- A number that no open stream has. -/
def Stdio.fresh (s : Stdio d) : ℕ := s.opened.sup id + 1

theorem Stdio.fresh_notMem (s : Stdio d) : s.fresh ∉ s.opened := by
  intro h
  have hle : s.fresh ≤ s.opened.sup id := Finset.le_sup (f := id) h
  exact absurd hle (Nat.not_succ_le_self _)

def workingStdio (d : DataModel) : Handler (Stdio d) StdioEvent StdioEvent.Resp
  | .fopen path, s =>
    match s.files path with
    | none => (none, s)
    | some contents => (some s.fresh, s.openStream s.fresh contents)
  | .fseekEnd file, s => ((0 : Int), s.seek file (s.stream file).1.length)
  | .ftell file, s => (((s.stream file).2 : Int), s)
  | .rewind file, s => ((), s.seek file 0)
  | .fread file n, s =>
    let items := (floatsOf ((s.stream file).1.drop (s.stream file).2)).take n
    (⟨items.length, items⟩, s.seek file ((s.stream file).2 + 4 * items.length))
  | .fclose file, s => ((0 : Int), { s with opened := s.opened.erase file })

theorem workingStdio_stdio (s : Stdio d) (e : StdioEvent) (r : e.Resp) (s' : Stdio d)
    (h : (workingStdio d).env s e r s') : stdio d s e r s' := by
  obtain ⟨rfl, rfl⟩ := Handler.answer_eq h
  cases e with
  | fopen path =>
    unfold workingStdio
    cases hpath : s.files path with
    | none =>
      simp only [hpath]
      rfl
    | some contents =>
      simp only [hpath]
      exact ⟨contents, hpath, s.fresh_notMem, rfl⟩
  | fseekEnd file => exact (if_pos rfl).symm
  | ftell file => exact ⟨Or.inr rfl, rfl⟩
  | rewind file => rfl
  | fread file n =>
    refine ⟨?_, ?_, ?_, ?_, _, rfl⟩
    · exact List.length_take_le _ _
    · exact List.length_take_le' _ _
    · exact List.length_take_le _ _
    · let items := floatsOf ((s.stream file).1.drop (s.stream file).2)
      show (items.take n).take (items.take n).length = items.take (items.take n).length
      rw [List.take_length, List.length_take]
      exact List.take_eq_take_min
  | fclose file => rfl

/-! ## The contract over any sequence of calls -/

/-- A call as it went.  What the files hold can have changed since the call before. -/
structure MapLoad (d : DataModel) where
  before : Stdio d
  len : Int
  path : String
  buf : List FloatBits
  retval : Int
  bufAfter : List FloatBits
  trace : StdioTrace d

def loadStep (s : Stdio d) (x : MapLoad d) (s' : Stdio d) : Prop :=
  x.before.opened = s.opened ∧
    Prog.Exec (stdio d) (readFloatFileIntoArray d x.len x.path x.buf) x.before x.trace
      (x.retval, x.bufAfter) s'

/-- The file is there and is exactly `4 * len` bytes long. -/
def SizeExact (s : Stdio d) (path : String) (len : Int) : Prop :=
  ∃ contents, s.files path = some contents ∧ (contents.bytes.length : Int) = 4 * len

/-- The file is there, and its floats are in the buffer. -/
def AllRead (s : Stdio d) (path : String) (len : Int) (buf : List FloatBits) : Prop :=
  ∃ contents, s.files path = some contents ∧ buf.take len.toNat = floatsOf contents.bytes

structure ReaderContract (x : Step (Stdio d) (MapLoad d)) : Prop where
  accepts : x.label.retval = 0 ↔ Opened x.label.trace ∧
    SizeExact x.label.before x.label.path x.label.len ∧
      AllRead x.label.before x.label.path x.label.len x.label.bufAfter
  closes : x.post.opened = x.pre.opened

/-- The file is not opened, or it is exactly as long as it should be and nothing fails. -/
def LoadsCleanly (x : Step (Stdio d) (MapLoad d)) : Prop :=
  ¬ Opened x.label.trace ∨
    SizeExact x.label.before x.label.path x.label.len ∧ AllOk x.label.trace

section
variable {s s' : Stdio d} {tr : StdioTrace d}

theorem opened_cons (path : String) (file : Option ℕ) (t : StdioTrace d) :
    Opened (⟨s, .fopen path, file⟩ :: t) ↔ file ≠ none ∨ Opened t := by
  unfold Opened
  rw [List.exists_mem_cons_iff]
  rfl

theorem sizeExact_iff {path : String} {contents : File d} {len : Int}
    (h : s.files path = some contents) :
    SizeExact s path len ↔ (contents.bytes.length : Int) = 4 * len := by
  unfold SizeExact
  rw [h]
  simp

/-- One call keeps the contract exactly if it loads cleanly. -/
theorem readerContract_iff {x : Step (Stdio d) (MapLoad d)}
    (hstep : loadStep x.pre x.label x.post) : ReaderContract x ↔ LoadsCleanly x := by
  obtain ⟨s₀, ⟨s, len, path, buf, retval, bufAfter, tr⟩, s'⟩ := x
  obtain ⟨hbefore, hexec⟩ : s.opened = s₀.opened ∧ _ := hstep
  have houtcome : ReadOutcome len path buf s tr (retval, bufAfter) s' := readOutcome_of_exec hexec
  generalize hr : (retval, bufAfter) = r at houtcome
  cases houtcome with
  | notOpened =>
    obtain ⟨rfl, rfl⟩ := Prod.mk.inj hr
    have hopened : ¬ Opened [(⟨s', .fopen path, none⟩ : Obs (Stdio d) StdioEvent _)] := by
      rw [opened_cons]
      simp [Opened]
    constructor
    · exact fun _ => Or.inl hopened
    · intro _
      constructor
      · exact iff_of_false (show (1 : Int) ≠ 0 by decide) fun h => hopened h.1
      · exact hbefore
  | leftOpen file contents t buf' s' hcontents hnew hbad hreads hfiles hs' =>
    have hopened : Opened (⟨s, .fopen path, some file⟩ :: t) :=
      (opened_cons path (some file) t).mpr (Or.inl (Option.some_ne_none file))
    constructor
    · intro hcontract
      -- the stream left open is a new one
      have hsame : s'.opened = s₀.opened := hcontract.closes
      rw [hs', ← hbefore] at hsame
      exact absurd (hsame ▸ Finset.mem_insert_self file s.opened) hnew
    · rintro (hnot | ⟨hexact, hok⟩)
      · exact absurd hopened hnot
      · have hlen : (contents.bytes.length : Int) = 4 * len := (sizeExact_iff hcontents).mp hexact
        have hne := hbad (Prog.allGood_cons _ _ |>.mp hok).2
        omega
  | read file contents t s' hcontents hlen hok hreads hfiles hs' =>
    obtain ⟨rfl, rfl⟩ := Prod.mk.inj hr
    have hopened : Opened (⟨s, .fopen path, some file⟩ :: t) :=
      (opened_cons path (some file) t).mpr (Or.inl (Option.some_ne_none file))
    constructor
    · intro hcontract
      have haccepts := hcontract.accepts.mp rfl
      refine Or.inr ⟨haccepts.2.1, ?_⟩
      exact Prog.allGood_cons _ _ |>.mpr ⟨Option.some_ne_none file, hok⟩
    · rintro (hnot | ⟨hexact, -⟩)
      · exact absurd hopened hnot
      · constructor
        · refine iff_of_true rfl ⟨hopened, hexact, contents, hcontents, ?_⟩
          have hfloats : len.toNat = (floatsOf contents.bytes).length := by
            rw [length_floatsOf]
            omega
          show List.take len.toNat _ = _
          rw [hfloats, List.take_left]
        · exact hs'.trans hbefore

/-- The run lemma: what every call leaves as it was stays as it was. -/
theorem opened_of_closes {step : Stdio d → MapLoad d → Stdio d → Prop}
    {run : List (Step (Stdio d) (MapLoad d))} (hrun : Run step s run s')
    (hcloses : ∀ x ∈ run, x.post.opened = x.pre.opened) :
    ∀ x ∈ run, x.post.opened = s.opened := by
  have hinv := @Run.invariant _ _ _ (fun v => v.opened = s.opened) _ _ _ hrun rfl
    fun x hx hpre _ => (hcloses x hx).trans hpre
  exact fun x hx => (hinv.2 x hx).2

end

/-- The same file under every path. -/
def filledWith (contents : File d) : Stdio d where
  files _ := some contents
  opened := ∅
  stream _ := ([], 0)

/-- The float 1.0, and the same with a byte too many. -/
def fourBytes (d : DataModel) : File d := ⟨[0, 0, 128, 63], by cases d <;> decide⟩
def fiveBytes (d : DataModel) : File d := ⟨[0, 0, 128, 63, 7], by cases d <;> decide⟩

/-- A call against the C library on which nothing fails. -/
def loadOn (len : Int) (path : String) (buf : List FloatBits) (s : Stdio d) :
    Step (Stdio d) (MapLoad d) :=
  let out := Prog.run (workingStdio d) (readFloatFileIntoArray d len path buf) s
  ⟨s, ⟨s, len, path, buf, out.1.1, out.1.2,
    Prog.trace (workingStdio d) (readFloatFileIntoArray d len path buf) s⟩, out.2⟩

theorem loadStep_loadOn (len : Int) (path : String) (buf : List FloatBits) (s : Stdio d) :
    loadStep s (loadOn len path buf s).label (loadOn len path buf s).post :=
  ⟨rfl, (Prog.exec_run_pair (workingStdio d) _ s).mono workingStdio_stdio⟩

/-- A file of five bytes is taken for one of one float. -/
theorem one_float_in_five_bytes :
    ¬ ∀ (d : DataModel) (s s' : Stdio d) (run : List (Step (Stdio d) (MapLoad d))),
      Run loadStep s run s' →
      (∀ x ∈ run, ReaderContract x) ∧ ∀ x ∈ run, x.post.opened.card = s.opened.card := by
  intro h
  let x := loadOn 1 "mapL1_LE.wav" [0] (filledWith (fiveBytes .lp64))
  have hrun : Run loadStep (filledWith (fiveBytes .lp64)) [x] x.post :=
    ⟨rfl, loadStep_loadOn _ _ _ _, rfl⟩
  have hcontract : ReaderContract x := (h _ _ _ _ hrun).1 x (List.mem_singleton_self x)
  have hretval : x.label.retval = 0 := by decide
  have hexact := (hcontract.accepts.mp hretval).2.1
  rw [sizeExact_iff rfl] at hexact
  exact absurd hexact (by decide)

/-- In every sequence of calls, every call keeps the contract and the number of open streams stays
what it was, exactly if every call either fails to open its file or finds it exactly as long as
expected with nothing failing after that. -/
theorem map_file_contract_iff (d : DataModel) (s s' : Stdio d)
    (run : List (Step (Stdio d) (MapLoad d))) (hrun : Run loadStep s run s') :
    ((∀ x ∈ run, ReaderContract x) ∧ ∀ x ∈ run, x.post.opened.card = s.opened.card) ↔
      ∀ x ∈ run, LoadsCleanly x := by
  constructor
  · intro h x hx
    exact (readerContract_iff (hrun.step_mem x hx)).mp (h.1 x hx)
  · intro hclean
    have hcontract : ∀ x ∈ run, ReaderContract x := fun x hx =>
      (readerContract_iff (hrun.step_mem x hx)).mpr (hclean x hx)
    have hopened := opened_of_closes hrun fun x hx => (hcontract x hx).closes
    exact ⟨hcontract, fun x hx => by rw [hopened x hx]⟩

/-- A map of one float. -/
theorem map_file_contract_iff_one :
    let x := loadOn 1 "mapL1_LE.wav" [0] (filledWith (fourBytes .ilp32))
    ReaderContract x ∧ x.label.bufAfter = [0x3f800000] := by
  intro x
  have hrun : Run loadStep (filledWith (fourBytes .ilp32)) [x] x.post :=
    ⟨rfl, loadStep_loadOn _ _ _ _, rfl⟩
  have hclean : LoadsCleanly x := by
    refine Or.inr ⟨(sizeExact_iff rfl).mpr (by decide), ?_⟩
    exact Prog.allGood_cons _ _ |>.mpr ⟨by decide, by decide⟩
  have hall := (map_file_contract_iff .ilp32 _ _ _ hrun).mpr fun y hy =>
    List.mem_singleton.mp hy ▸ hclean
  exact ⟨hall.1 x (List.mem_singleton_self x), by decide⟩

end SimuSound.Stereo
