import SimuSound.Reasoning.Implementation
import SimuSound.Imu.RegisterFile

/-!
# SpiLink — the serial interface as bytes on the SPI bus

`begin` links `ICM_20948_write_SPI` and `ICM_20948_read_SPI`.  A transfer clocks bytes in and out at
once: the first byte in is seven address bits under a read bit, and the bytes after it are stored or,
for a read, clock the answer out one byte late.  The chip at the other end sees nothing but bytes.
-/

namespace SimuSound.Imu

open Reasoning

/-- The calls of the SPI library, and what else the driver has from outside. -/
inductive WireEvent
  | spiWrite (handle : Int) (buf : List Byte)
  | spiXfer (handle : Int) (txBuf : List Byte)
  | spiOpen (csPin : Byte) (freq : BitVec 32)
  | uninit (len : Nat)

/-- A transfer returns an `int`, and `spiXfer` fills `rxBuf`. -/
@[reducible] def WireEvent.Resp : WireEvent → Type
  | .spiWrite _ _ => BitVec 32
  | .spiXfer _ txBuf => BitVec 32 × (Fin txBuf.length → Byte)
  | .spiOpen _ _ => Int
  | .uninit len => Fin len → Byte

abbrev Wire := Prog WireEvent WireEvent.Resp

/-- The register and then the data. -/
def writeTmp (reg : Byte) (data : List Byte) : List Byte := ((reg &&& 0x7F) ||| 0x00) :: data

/-- The register with the read bit, and then zeros. -/
def readTmp (reg : Byte) (len : Nat) : List Byte := ((reg &&& 0x7F) ||| 0x80) :: List.replicate len 0

theorem length_readTmp (reg : Byte) (len : Nat) : (readTmp reg len).length = len + 1 := by
  rw [readTmp, List.length_cons, List.length_replicate]

/-- `ICM_20948_write_SPI`; `user` is the `_spi_handle` of the object it points to. -/
def writeSpi (reg : Byte) (data : List Byte) (user : Option Int) : Wire Status :=
  match user with
  | none => pure Status.paramErr
  | some spiHandle => do
    if spiHandle < 0 then return Status.paramErr
    let bytesWritten ← (Prog.perform (WireEvent.spiWrite spiHandle (writeTmp reg data)) : Wire (BitVec 32))
    -- an `int` against a `uint32_t`
    if bytesWritten ≠ BitVec.ofNat 32 (data.length + 1) then return Status.err
    return Status.ok

/-- `tmp2 + 1`: the byte received with the register is dropped. -/
def received {reg : Byte} {len : Nat} (tmp2 : Fin (readTmp reg len).length → Byte) :
    Fin len → Byte :=
  fun i => tmp2 (i.succ.cast (length_readTmp reg len).symm)

/-- `ICM_20948_read_SPI` -/
def readSpi (reg : Byte) {len : Nat} (buff : Fin len → Byte) (user : Option Int) :
    Wire (Read (Fin len → Byte)) :=
  match user with
  | none => pure ⟨Status.paramErr, buff⟩
  | some spiHandle => do
    if spiHandle < 0 then return ⟨Status.paramErr, buff⟩
    let x ← (Prog.perform (WireEvent.spiXfer spiHandle (readTmp reg len)) :
      Wire (BitVec 32 × (Fin (readTmp reg len).length → Byte)))
    if x.1 ≠ BitVec.ofNat 32 (len + 1) then return ⟨Status.err, buff⟩
    return ⟨Status.ok, received x.2⟩

/-- The serial interface of an object whose `_spi_handle` is the state. -/
def overSpi : (e : BusEvent) → StateT Int Wire e.Resp
  | .read reg len => fun spiHandle => do
    let r ← readSpi reg (fun _ : Fin len => 0) (some spiHandle)
    pure (r, spiHandle)
  | .write reg data => fun spiHandle => do
    let retval ← writeSpi reg data (some spiHandle)
    pure (retval, spiHandle)
  | .uninit len => fun spiHandle => do
    let garbage ← (Prog.perform (WireEvent.uninit len) : Wire (Fin len → Byte))
    pure (garbage, spiHandle)
  | .spiOpen csPin freq => fun _ => do
    let spiHandle ← (Prog.perform (WireEvent.spiOpen csPin freq) : Wire Int)
    pure (spiHandle, spiHandle)

/-! ## The chip on the bus -/

/-- What a chip is asked for while it is selected. -/
inductive Transfer
  | read (a : BitVec 7) (len : Nat)
  | write (a : BitVec 7) (data : List Byte)

@[reducible] def Transfer.Resp : Transfer → Type
  | .read _ len => Fin len → Byte
  | .write _ _ => Unit

/-- A chip that never fails. -/
abbrev SpiChip (σ : Type) := Env σ Transfer Transfer.Resp

variable {σ : Type}

/-- What clocking `txBuf` in, and `rxBuf` out, does to the chip. -/
def SpiChip.clock (chip : SpiChip σ) (s : σ) :
    (txBuf : List Byte) → (Fin txBuf.length → Byte) → σ → Prop
  | [], _, s' => s' = s
  | first :: rest, rxBuf, s' =>
    if first.msb then
      chip s (.read (first.setWidth 7) rest.length) (fun i => rxBuf i.succ) s'
    else
      chip s (.write (first.setWidth 7) rest) () s'

/-- `PI_BAD_HANDLE`, `PI_BAD_SPI_COUNT` and `PI_SPI_XFER_FAILED` -/
def piErrors : List (BitVec 32) := [-25, -84, -89]

/-- What a call that transfers `count` bytes returns: their number or one of the errors.  Counts that
are no `int` are left out. -/
def Clocked (n : BitVec 32) (count : Nat) (moved failed : Prop) : Prop :=
  count < 2 ^ 31 ∧ (n = BitVec.ofNat 32 count ∧ moved ∨ n ∈ piErrors ∧ failed)

/-- The bus with one chip on it.  A transfer that failed may have done what `disturbed` says. -/
def SpiChip.wire (chip : SpiChip σ) (disturbed : σ → σ → Prop) : Env σ WireEvent WireEvent.Resp :=
  fun s e => match e with
    | .spiWrite _ buf => fun n s' =>
      Clocked n buf.length (∃ rxBuf, chip.clock s buf rxBuf s') (disturbed s s')
    | .spiXfer _ txBuf => fun x s' =>
      Clocked x.1 txBuf.length (chip.clock s txBuf x.2 s') (disturbed s s')
    | .spiOpen _ _ => fun _ s' => s' = s
    | .uninit _ => fun _ s' => s' = s

/-- The same chip as the functions of the driver see it, behind the handle. -/
def SpiChip.bus (chip : SpiChip σ) (disturbed : σ → σ → Prop) :
    Env (Int × σ) BusEvent BusEvent.Resp :=
  fun w e => match e with
    | .read reg len => fun r w' => w'.1 = w.1 ∧
      if w.1 < 0 then r = ⟨Status.paramErr, fun _ => 0⟩ ∧ w'.2 = w.2
      else len + 1 < 2 ^ 31 ∧
        (r.retval = Status.ok ∧ chip w.2 (.read (addr reg) len) r.val w'.2 ∨
          r = ⟨Status.err, fun _ => 0⟩ ∧ disturbed w.2 w'.2)
    | .write reg data => fun (retval : Status) w' => w'.1 = w.1 ∧
      if w.1 < 0 then retval = Status.paramErr ∧ w'.2 = w.2
      else data.length + 1 < 2 ^ 31 ∧
        (retval = Status.ok ∧ chip w.2 (.write (addr reg) data) () w'.2 ∨
          retval = Status.err ∧ disturbed w.2 w'.2)
    | .uninit _ => fun _ w' => w' = w
    | .spiOpen _ _ => fun spiHandle w' => w' = (spiHandle, w.2)

/-- A call of the library and the bytes it brought in, if it succeeded. -/
abbrev WireCall := WireEvent × Option (List Byte)

/-- What was received after the first byte. -/
def outcome : Obs σ WireEvent WireEvent.Resp → WireCall
  | ⟨_, .spiWrite h buf, (n : BitVec 32)⟩ =>
    (.spiWrite h buf, if n = BitVec.ofNat 32 buf.length then some [] else none)
  | ⟨_, .spiXfer h txBuf, x⟩ => (.spiXfer h txBuf,
    if x.1 = BitVec.ofNat 32 txBuf.length then some (List.ofFn x.2).tail else none)
  | ⟨_, .spiOpen csPin freq, _⟩ => (.spiOpen csPin freq, some [])
  | ⟨_, .uninit len, _⟩ => (.uninit len, some [])

/-- The calls that an access comes to. -/
def onWire : Obs (Int × σ) BusEvent BusEvent.Resp → List WireCall
  | ⟨w, .read reg len, r⟩ => if w.1 < 0 then []
    else [(.spiXfer w.1 (readTmp reg len),
      if r.retval = Status.ok then some (List.ofFn r.val) else none)]
  | ⟨w, .write reg data, (retval : Status)⟩ => if w.1 < 0 then []
    else [(.spiWrite w.1 (writeTmp reg data), if retval = Status.ok then some [] else none)]
  | ⟨_, .uninit len, _⟩ => [(.uninit len, some [])]
  | ⟨_, .spiOpen csPin freq, _⟩ => [(.spiOpen csPin freq, some [])]

/-! ## Bytes and transfers -/

theorem msb_writeTmp (reg : Byte) : ((reg &&& 0x7F) ||| 0x00).msb = false := by
  rw [BitVec.msb_or, BitVec.msb_and]
  exact Bool.or_eq_false_iff.mpr ⟨Bool.and_false _, rfl⟩

theorem msb_readTmp (reg : Byte) : ((reg &&& 0x7F) ||| 0x80).msb = true := by
  rw [BitVec.msb_or]
  exact Bool.or_true _

/-- The seven address bits arrive. -/
theorem setWidth_tmp (reg : Byte) {mark : Byte} (hmark : mark.setWidth 7 = 0#7) :
    ((reg &&& 0x7F) ||| mark).setWidth 7 = addr reg := by
  have hmask : (0x7F : Byte).setWidth 7 = BitVec.allOnes 7 := rfl
  rw [BitVec.setWidth_or, BitVec.setWidth_and, hmark, hmask, BitVec.and_allOnes, BitVec.or_zero]
  rfl

section
variable {chip : SpiChip σ} {disturbed : σ → σ → Prop} {s s' : σ}

/-- The first byte says what the others are. -/
theorem clock_cons (first : Byte) (rest : List Byte) (rxBuf : Fin (first :: rest).length → Byte) :
    chip.clock s (first :: rest) rxBuf s' ↔
      if first.msb then chip s (.read (first.setWidth 7) rest.length) (fun i => rxBuf i.succ) s'
      else chip s (.write (first.setWidth 7) rest) () s' := Iff.rfl

theorem clock_writeTmp {reg : Byte} {data : List Byte}
    (rxBuf : Fin (writeTmp reg data).length → Byte) :
    chip.clock s (writeTmp reg data) rxBuf s' ↔ chip s (.write (addr reg) data) () s' := by
  refine (clock_cons ((reg &&& 0x7F) ||| 0x00) data rxBuf).trans ?_
  rw [msb_writeTmp, setWidth_tmp reg rfl]
  exact Iff.rfl

/-- As many bytes come out as there were zeros. -/
theorem clock_readTmp {reg : Byte} {len : Nat} (rxBuf : Fin (readTmp reg len).length → Byte) :
    chip.clock s (readTmp reg len) rxBuf s' ↔
      chip s (.read (addr reg) len) (received rxBuf) s' := by
  refine (clock_cons ((reg &&& 0x7F) ||| 0x80) (List.replicate len 0) rxBuf).trans ?_
  rw [msb_readTmp, if_pos rfl, setWidth_tmp reg rfl]
  have hlen : (List.replicate len (0 : Byte)).length = len := List.length_replicate
  -- only the type of the answer is another one
  have hcast : ∀ n (h : n = len) (answer : Fin n → Byte),
      chip s (.read (addr reg) n) answer s' ↔
        chip s (.read (addr reg) len) (fun i => answer (i.cast h.symm)) s' := by
    rintro n rfl answer
    exact Iff.rfl
  exact hcast _ hlen _

theorem error_ne_count {n : BitVec 32} {count : Nat} (herr : n ∈ piErrors) (hcount : count < 2 ^ 31) :
    n ≠ BitVec.ofNat 32 count := by
  have hneg : ∀ m ∈ piErrors, 2147483648 ≤ m.toNat := by simp [piErrors]
  have hn := hneg n herr
  rintro rfl
  rw [BitVec.toNat_ofNat] at hn
  omega

theorem length_writeTmp (reg : Byte) (data : List Byte) :
    (writeTmp reg data).length = data.length + 1 := rfl

/-- What the code makes of a count, when it comes from a transfer that may fail. -/
theorem exists_clocked_iff {count : Nat} {moved failed : Prop} {retval : Status} :
    (∃ n, Clocked n count moved failed ∧
      retval = if n ≠ BitVec.ofNat 32 count then Status.err else Status.ok) ↔
      count < 2 ^ 31 ∧ (retval = Status.ok ∧ moved ∨ retval = Status.err ∧ failed) := by
  constructor
  · rintro ⟨n, ⟨hcount, htransfer⟩, rfl⟩
    refine ⟨hcount, ?_⟩
    rcases htransfer with ⟨hn, hmoved⟩ | ⟨herr, hfailed⟩
    · exact .inl ⟨if_neg (not_not_intro hn), hmoved⟩
    · exact .inr ⟨if_pos (error_ne_count herr hcount), hfailed⟩
  · rintro ⟨hcount, ⟨rfl, hmoved⟩ | ⟨rfl, hfailed⟩⟩
    · exact ⟨BitVec.ofNat 32 count, ⟨hcount, .inl ⟨rfl, hmoved⟩⟩, (if_neg (not_not_intro rfl)).symm⟩
    · have herr : (-89 : BitVec 32) ∈ piErrors := by simp [piErrors]
      exact ⟨-89, ⟨hcount, .inr ⟨herr, hfailed⟩⟩, (if_pos (error_ne_count herr hcount)).symm⟩

section
variable {h : Int} {reg : Byte} {tr : List (Obs σ WireEvent WireEvent.Resp)}

theorem writeSpi_of_neg (hneg : h < 0) (data : List Byte) :
    writeSpi reg data (some h) = pure Status.paramErr := if_pos hneg

theorem readSpi_of_neg (hneg : h < 0) {len : Nat} (buff : Fin len → Byte) :
    readSpi reg buff (some h) = pure ⟨Status.paramErr, buff⟩ := if_pos hneg

theorem exec_writeSpi (hopen : ¬ h < 0) {data : List Byte} {retval : Status} :
    Prog.Exec (chip.wire disturbed) (writeSpi reg data (some h)) s tr retval s' ↔
      ∃ n : BitVec 32, tr = [⟨s, .spiWrite h (writeTmp reg data), n⟩] ∧
        Clocked n (data.length + 1) (chip s (.write (addr reg) data) () s') (disturbed s s') ∧
        retval = if n ≠ BitVec.ofNat 32 (data.length + 1) then Status.err else Status.ok := by
  have hprog : writeSpi reg data (some h) =
      (Prog.perform (WireEvent.spiWrite h (writeTmp reg data)) : Wire (BitVec 32)) >>= fun n =>
        pure (if n ≠ BitVec.ofNat 32 (data.length + 1) then Status.err else Status.ok) := by
    refine (if_neg hopen).trans (bind_congr fun n => ?_)
    rw [apply_ite pure]
  have hmoved : (∃ rxBuf, chip.clock s (writeTmp reg data) rxBuf s') ↔
      chip s (.write (addr reg) data) () s' :=
    ⟨fun ⟨rxBuf, hclock⟩ => (clock_writeTmp rxBuf).mp hclock,
      fun hchip => ⟨fun _ => 0, (clock_writeTmp _).mpr hchip⟩⟩
  rw [hprog, Prog.exec_perform_bind, ← hmoved]
  constructor
  · rintro ⟨n, s₁, tr₁, hwire, rfl, rfl, rfl, rfl⟩
    exact ⟨n, rfl, hwire, rfl⟩
  · rintro ⟨n, rfl, hwire, rfl⟩
    exact ⟨n, s', [], hwire, rfl, rfl, rfl, rfl⟩

theorem exec_readSpi (hopen : ¬ h < 0) {len : Nat} {buff : Fin len → Byte}
    {r : Read (Fin len → Byte)} :
    Prog.Exec (chip.wire disturbed) (readSpi reg buff (some h)) s tr r s' ↔
      ∃ x : BitVec 32 × (Fin (readTmp reg len).length → Byte),
        tr = [⟨s, .spiXfer h (readTmp reg len), x⟩] ∧
        Clocked x.1 (len + 1) (chip s (.read (addr reg) len) (received x.2) s')
          (disturbed s s') ∧
        r = if x.1 ≠ BitVec.ofNat 32 (len + 1) then ⟨Status.err, buff⟩
          else ⟨Status.ok, received x.2⟩ := by
  have hprog : readSpi reg buff (some h) =
      (Prog.perform (WireEvent.spiXfer h (readTmp reg len)) :
        Wire (BitVec 32 × (Fin (readTmp reg len).length → Byte))) >>= fun x =>
          pure (if x.1 ≠ BitVec.ofNat 32 (len + 1) then ⟨Status.err, buff⟩
            else ⟨Status.ok, received x.2⟩) := by
    refine (if_neg hopen).trans (bind_congr fun x => ?_)
    rw [apply_ite pure]
  have hwire : ∀ (x : BitVec 32 × (Fin (readTmp reg len).length → Byte)) (s₁ : σ),
      chip.wire disturbed s (.spiXfer h (readTmp reg len)) x s₁ ↔
        Clocked x.1 (len + 1) (chip s (.read (addr reg) len) (received x.2) s₁)
          (disturbed s s₁) := by
    intro x s₁
    have hclock : chip.clock s (readTmp reg len) x.2 s₁ ↔
        chip s (.read (addr reg) len) (received x.2) s₁ := clock_readTmp x.2
    change Clocked x.1 (readTmp reg len).length _ _ ↔ _
    rw [hclock]
    exact iff_of_eq (congrArg (fun n => Clocked x.1 n _ _) (length_readTmp reg len))
  rw [hprog, Prog.exec_perform_bind]
  constructor
  · rintro ⟨x, s₁, tr₁, henv, rfl, rfl, rfl, rfl⟩
    exact ⟨x, rfl, (hwire x s').mp henv, rfl⟩
  · rintro ⟨x, rfl, henv, rfl⟩
    exact ⟨x, s', [], (hwire x s').mpr henv, rfl, rfl, rfl, rfl⟩

end

end

/-! ## The driver over the bus -/

section
variable {chip : SpiChip σ} {disturbed : σ → σ → Prop}

variable {h h' : Int} {s s' : σ} {reg : Byte} {tr : List (Obs σ WireEvent WireEvent.Resp)}

theorem exec_overSpi_write {data : List Byte} {retval : Status} :
    Prog.Exec (chip.wire disturbed) ((overSpi (.write reg data)).run h) s tr (retval, h') s' ↔
      Prog.Exec (chip.wire disturbed) (writeSpi reg data (some h)) s tr retval s' ∧ h' = h :=
  Prog.exec_lift _ (writeSpi reg data (some h)) h s tr retval h' s'

theorem exec_overSpi_read {len : Nat} {r : Read (Fin len → Byte)} :
    Prog.Exec (chip.wire disturbed) ((overSpi (.read reg len)).run h) s tr (r, h') s' ↔
      Prog.Exec (chip.wire disturbed) (readSpi reg (fun _ : Fin len => 0) (some h)) s tr r s' ∧
        h' = h :=
  Prog.exec_lift _ (readSpi reg (fun _ : Fin len => 0) (some h)) h s tr r h' s'

theorem under_write {data : List Byte} {retval : Status} :
    (∃ tr, Prog.Exec (chip.wire disturbed) ((overSpi (.write reg data)).run h) s tr
      (retval, h') s') ↔ chip.bus disturbed (h, s) (.write reg data) retval (h', s') := by
  refine (exists_congr fun tr => exec_overSpi_write).trans ?_
  by_cases hneg : h < 0
  · simp only [writeSpi_of_neg hneg, Prog.exec_pure, SpiChip.bus, if_pos hneg]
    constructor
    · rintro ⟨tr, ⟨-, hret, hs⟩, hh⟩
      exact ⟨hh, hret, hs⟩
    · rintro ⟨hh, hret, hs⟩
      exact ⟨[], ⟨rfl, hret, hs⟩, hh⟩
  · simp only [exec_writeSpi hneg, SpiChip.bus, if_neg hneg, ← exists_clocked_iff]
    constructor
    · rintro ⟨tr, ⟨n, -, htransfer, hret⟩, hh⟩
      exact ⟨hh, n, htransfer, hret⟩
    · rintro ⟨hh, n, htransfer, hret⟩
      exact ⟨_, ⟨n, rfl, htransfer, hret⟩, hh⟩

/-- Any bytes can be received. -/
theorem exists_received {reg : Byte} {len : Nat} (bytes : Fin len → Byte) :
    ∃ tmp2 : Fin (readTmp reg len).length → Byte, received tmp2 = bytes := by
  refine ⟨fun i => if hi : i.val - 1 < len then bytes ⟨i.val - 1, hi⟩ else 0, ?_⟩
  funext i
  exact dif_pos i.isLt

theorem under_read {len : Nat} {r : Read (Fin len → Byte)} :
    (∃ tr, Prog.Exec (chip.wire disturbed) ((overSpi (.read reg len)).run h) s tr
      (r, h') s') ↔ chip.bus disturbed (h, s) (.read reg len) r (h', s') := by
  refine (exists_congr fun tr => exec_overSpi_read).trans ?_
  by_cases hneg : h < 0
  · simp only [readSpi_of_neg hneg, Prog.exec_pure, SpiChip.bus, if_pos hneg]
    constructor
    · rintro ⟨tr, ⟨-, hret, hs⟩, hh⟩
      exact ⟨hh, hret, hs⟩
    · rintro ⟨hh, hret, hs⟩
      exact ⟨[], ⟨rfl, hret, hs⟩, hh⟩
  · simp only [exec_readSpi hneg, SpiChip.bus, if_neg hneg]
    constructor
    · rintro ⟨tr, ⟨x, -, ⟨hcount, htransfer⟩, rfl⟩, hh⟩
      refine ⟨hh, hcount, ?_⟩
      rcases htransfer with ⟨hn, hmoved⟩ | ⟨herr, hfailed⟩
      · rw [if_neg (not_not_intro hn)]
        exact .inl ⟨rfl, hmoved⟩
      · rw [if_pos (error_ne_count herr hcount)]
        exact .inr ⟨rfl, hfailed⟩
    · rintro ⟨hh, hcount, ⟨hok, hmoved⟩ | ⟨rfl, hfailed⟩⟩
      · obtain ⟨tmp2, htmp2⟩ := @exists_received reg len r.val
        refine ⟨_, ⟨(BitVec.ofNat 32 (len + 1), tmp2), rfl, ⟨hcount, .inl ⟨rfl, ?_⟩⟩, ?_⟩, hh⟩
        · rw [htmp2]
          exact hmoved
        · rw [if_neg (not_not_intro rfl), htmp2, ← hok]
      · have herr : (-89 : BitVec 32) ∈ piErrors := by simp [piErrors]
        exact ⟨_, ⟨(-89, fun _ => 0), rfl, ⟨hcount, .inr ⟨herr, hfailed⟩⟩,
          (if_pos (error_ne_count herr hcount)).symm⟩, hh⟩

/-- Through the serial interface the driver sees the chip's transfers, or errors. -/
theorem under_overSpi : Prog.under overSpi (chip.wire disturbed) = chip.bus disturbed := by
  funext ⟨h, s⟩ e r ⟨h', s'⟩
  apply propext
  cases e with
  | write reg data => exact under_write
  | read reg len => exact under_read
  | uninit len =>
    constructor
    · rintro ⟨tr, r₁, s₁, tr₁, hs, -, -, hret, hs'⟩
      exact Prod.ext (Prod.mk.inj hret).2 (hs'.trans hs)
    · intro hw
      exact ⟨_, r, s, [], rfl, rfl, rfl, Prod.ext rfl (Prod.mk.inj hw).1, (Prod.mk.inj hw).2⟩
  | spiOpen csPin freq =>
    constructor
    · rintro ⟨tr, r₁, s₁, tr₁, hs, -, -, hret, hs'⟩
      obtain ⟨hr, hh⟩ := Prod.mk.inj hret
      exact Prod.ext (hh.trans hr.symm) (hs'.trans hs)
    · intro hw
      exact ⟨_, r, s, [], rfl, rfl, rfl, Prod.ext rfl (Prod.mk.inj hw).1, (Prod.mk.inj hw).2⟩

theorem ofFn_received {len : Nat} (tmp2 : Fin (readTmp reg len).length → Byte) :
    (List.ofFn tmp2).tail = List.ofFn (received tmp2) := by
  apply List.ext_getElem
  · rw [List.length_tail, List.length_ofFn, List.length_ofFn, length_readTmp]
    rfl
  · intro i hi hi'
    rw [List.getElem_tail, List.getElem_ofFn, List.getElem_ofFn]
    rfl

/-- One call for an access, and none without a handle. -/
theorem map_outcome (w : Int × σ) (e : BusEvent) (r : e.Resp) (w' : Int × σ)
    (tr : List (Obs σ WireEvent WireEvent.Resp))
    (hexec : Prog.Exec (chip.wire disturbed) ((overSpi e).run w.1) w.2 tr (r, w'.1) w'.2) :
    tr.map outcome = onWire ⟨w, e, r⟩ := by
  obtain ⟨h, s⟩ := w
  cases e with
  | write reg data =>
    obtain ⟨hexec, -⟩ := exec_overSpi_write.mp hexec
    by_cases hneg : h < 0
    · rw [writeSpi_of_neg hneg] at hexec
      rw [hexec.1]
      exact (if_pos hneg).symm
    · obtain ⟨n, rfl, -, rfl⟩ := (exec_writeSpi hneg).mp hexec
      refine Eq.trans ?_ (if_neg hneg).symm
      refine congrArg (fun brought => [(WireEvent.spiWrite h (writeTmp reg data), brought)]) ?_
      rw [length_writeTmp]
      by_cases hn : n = BitVec.ofNat 32 (data.length + 1)
      · rw [if_pos hn, if_neg (not_not_intro hn), if_pos rfl]
      · rw [if_neg hn, if_pos hn, if_neg (by decide)]
  | read reg len =>
    obtain ⟨hexec, -⟩ := exec_overSpi_read.mp hexec
    by_cases hneg : h < 0
    · rw [readSpi_of_neg hneg] at hexec
      rw [hexec.1]
      exact (if_pos hneg).symm
    · obtain ⟨x, rfl, -, rfl⟩ := (exec_readSpi hneg).mp hexec
      refine Eq.trans ?_ (if_neg hneg).symm
      refine congrArg (fun brought => [(WireEvent.spiXfer h (readTmp reg len), brought)]) ?_
      have hcount := congrArg (BitVec.ofNat 32) (length_readTmp reg len)
      by_cases hn : x.1 = BitVec.ofNat 32 (len + 1)
      · rw [if_pos (hn.trans hcount.symm), if_neg (not_not_intro hn), if_pos rfl, ofFn_received]
      · have hfailed : ¬ Status.err = Status.ok := by decide
        rw [if_neg (fun heq => hn (heq.trans hcount)), if_pos hn, if_neg hfailed]
  | uninit len =>
    obtain ⟨r₁, s₁, tr₁, -, rfl, rfl, -, -⟩ := hexec
    rfl
  | spiOpen csPin freq =>
    obtain ⟨r₁, s₁, tr₁, -, rfl, rfl, -, -⟩ := hexec
    rfl

end

/-- The destination keeps its contents when the transfer fails. -/
theorem readSpi_dest (reg : Byte) {len : Nat} (buff dest : Fin len → Byte) (h : Int) :
    (readSpi reg buff (some h) >>= fun r =>
      pure ⟨r.retval, if r.retval = Status.ok then r.val else dest⟩) =
      readSpi reg dest (some h) := by
  have hparam : ¬ Status.paramErr = Status.ok := by decide
  have herr : ¬ Status.err = Status.ok := by decide
  by_cases hneg : h < 0
  · rw [readSpi_of_neg hneg, readSpi_of_neg hneg, pure_bind, if_neg hparam]
  · have hopen : ∀ buff : Fin len → Byte, readSpi reg buff (some h) = _ := fun _ => if_neg hneg
    rw [hopen, hopen, bind_assoc]
    refine bind_congr fun x => ?_
    split
    · rw [pure_bind, if_neg herr]
    · rw [pure_bind, if_pos rfl]

/-- `execute_r` with the interface linked is `read_SPI` into the destination. -/
theorem via_executeR (reg : Byte) {len : Nat} (dest : Fin len → Byte) (h : Int) :
    ((executeR reg dest).via overSpi).run h =
      readSpi reg dest (some h) >>= fun r => pure (r, h) := by
  rw [← readSpi_dest reg (fun _ => 0) dest h, bind_assoc]
  exact bind_assoc (readSpi reg (fun _ : Fin len => 0) (some h)) _ _

/-- Whatever code of the driver runs: over the bytes of the bus it returns what it returns on the
chip's transfers, leaves the chip as it leaves it there, and makes one call for each of its accesses
in their order, which brings in the bytes of that access. -/
theorem over_spi_iff (chip : SpiChip σ) (disturbed : σ → σ → Prop) {α : Type} (p : Io α)
    (h h' : Int) (s s' : σ) (a : α) (calls : List WireCall) :
    (∃ tr, Prog.Exec (chip.wire disturbed) ((p.via overSpi).run h) s tr (a, h') s' ∧
      tr.map outcome = calls) ↔
    ∃ tr, Prog.Exec (chip.bus disturbed) p (h, s) tr a (h', s') ∧ tr.flatMap onWire = calls := by
  rw [← under_overSpi]
  exact Prog.exec_via map_outcome

end SimuSound.Imu
