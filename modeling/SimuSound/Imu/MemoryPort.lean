import SimuSound.Imu.DmpMemory

/-!
# MemoryPort — the memory behind the three memory registers

`MEM_BANK_SEL` selects a bank, `MEM_START_ADDR` an offset in it, and a burst through `MEM_R_W` moves
bytes from there on.  What a burst does to the memory is a parameter: the memory itself, or a record
of what was moved.  Without failures `write_mems` and `read_mems` are one burst of any length.
-/

namespace SimuSound.Imu

open Reasoning

/-- What stands behind the port: writing and reading bytes from an offset of a bank on.  It does not
matter how the bytes are cut into bursts. -/
structure Backing (μ : Type) where
  write : Byte → Byte → List Byte → μ → μ
  read : Byte → Byte → List Byte → μ → μ → Prop
  write_nil : ∀ bank offset m, write bank offset [] m = m
  write_append : ∀ bank offset xs ys m, write bank offset (xs ++ ys) m =
    write bank (offset + BitVec.ofNat 8 xs.length) ys (write bank offset xs m)
  read_nil : ∀ bank offset m, read bank offset [] m m
  read_append : ∀ bank offset xs ys m m₁ m₂, read bank offset xs m m₁ →
    read bank (offset + BitVec.ofNat 8 xs.length) ys m₁ m₂ → read bank offset (xs ++ ys) m m₂

structure Port (μ : Type) where
  bank : Byte
  start : Byte
  mem : μ

variable {μ : Type}

/-- A successful access.  Where a burst leaves the start address is not specified. -/
def Backing.effect (B : Backing μ) (s : Port μ) : (e : BusEvent) → e.Resp → Port μ → Prop
  | .write reg data, _, s' =>
    if reg = agb0RegMemBankSel then s' = { s with bank := data.headD s.bank }
    else if reg = agb0RegMemStartAddr then s' = { s with start := data.headD s.start }
    else if reg = agb0RegMemRW then
      ∃ start, s' = ⟨s.bank, start, B.write s.bank s.start data s.mem⟩
    else s' = s
  | .read reg _, r, s' =>
    if reg = agb0RegMemRW then
      s'.bank = s.bank ∧ B.read s.bank s.start (List.ofFn r.val) s.mem s'.mem
    else s' = s
  | .uninit _, _, s' => s' = s
  | .spiOpen _ _, _, s' => s' = s

/-- The device as far as its memory is concerned; a failed access changes nothing. -/
def Backing.device (B : Backing μ) : Env (Port μ) BusEvent BusEvent.Resp := fun s e r s' =>
  if Good e r then B.effect s e r s' else s' = s

/-! ## Single accesses -/

section
variable {B : Backing μ} {s s' : Port μ} {tr : BusTrace (Port μ)} {retval : Status}

theorem device_good {e : BusEvent} {r : e.Resp} (hgood : Good e r) (h : B.device s e r s') :
    B.effect s e r s' := by
  unfold Backing.device at h
  rwa [if_pos hgood] at h

theorem exec_startAddr {b : Byte}
    (hexec : Prog.Exec B.device (writeByte agb0RegMemStartAddr b) s tr retval s')
    (hok : AllOk tr) : s' = { s with start := b } := by
  obtain ⟨hdev, rfl⟩ := (Prog.exec_perform _ _ _ _ _ _).mp hexec
  exact device_good (allOk_cons _ _ |>.mp hok).1 hdev

theorem exec_writeBurst {chunk : List Byte}
    (hexec : Prog.Exec B.device (executeW agb0RegMemRW chunk) s tr retval s') (hok : AllOk tr) :
    s'.bank = s.bank ∧ s'.mem = B.write s.bank s.start chunk s.mem := by
  obtain ⟨hdev, rfl⟩ := (Prog.exec_perform _ _ _ _ _ _).mp hexec
  obtain ⟨start, rfl⟩ : ∃ start, s' = ⟨s.bank, start, B.write s.bank s.start chunk s.mem⟩ :=
    device_good (allOk_cons _ _ |>.mp hok).1 hdev
  exact ⟨rfl, rfl⟩

theorem exec_readBurst {len : Nat} {dest : Fin len → Byte} {r : Read (Fin len → Byte)}
    (hexec : Prog.Exec B.device (executeR agb0RegMemRW dest) s tr r s') (hok : AllOk tr) :
    r.retval = Status.ok ∧ s'.bank = s.bank ∧
      B.read s.bank s.start (List.ofFn r.val) s.mem s'.mem := by
  obtain ⟨r₁, s₁, t₁, t₂, rfl, hread, rfl, rfl, rfl⟩ := (Prog.exec_bind _ _ _ _ _ _ _).mp hexec
  obtain ⟨hdev, rfl⟩ := (Prog.exec_perform _ _ _ _ _ _).mp hread
  have hgood : r₁.retval = Status.ok := (allOk_cons _ _ |>.mp hok).1
  have heffect := device_good (e := .read agb0RegMemRW len) hgood hdev
  refine ⟨hgood, ?_⟩
  simp only [if_pos hgood]
  exact heffect

/-- Accesses to other registers do not touch the port. -/
def OffPort (e : BusEvent) : Prop :=
  ∀ reg ∈ e.reg, reg ≠ agb0RegMemBankSel ∧ reg ≠ agb0RegMemStartAddr ∧ reg ≠ agb0RegMemRW

theorem device_offPort {e : BusEvent} {r : e.Resp} (he : OffPort e) (h : B.device s e r s') :
    s' = s := by
  unfold Backing.device at h
  split at h
  · cases e with
    | read reg len =>
      simp only [Backing.effect, if_neg (he reg rfl).2.2] at h
      exact h
    | write reg data =>
      obtain ⟨hsel, hstart, hport⟩ := he reg rfl
      simp only [Backing.effect, if_neg hsel, if_neg hstart, if_neg hport] at h
      exact h
    | uninit len => exact h
    | spiOpen csPin freq => exact h
  · exact h

theorem offPort_uninit {len : Nat} : OffPort (.uninit len) :=
  fun _ hmem => absurd hmem (by simp [BusEvent.reg])

theorem exec_powerMgmt {assign : Byte → Byte}
    (hexec : Prog.Exec B.device (updateReg 0 agb0RegPwrMgmt1 assign) s tr retval s') : s' = s := by
  have hreg : agb0RegPwrMgmt1 ≠ agb0RegMemBankSel ∧ agb0RegPwrMgmt1 ≠ agb0RegMemStartAddr ∧
      agb0RegPwrMgmt1 ≠ agb0RegMemRW := by decide
  have hoff : ∀ e : BusEvent, e.reg = some agb0RegPwrMgmt1 → OffPort e := by
    intro e he reg hmem
    rw [he] at hmem
    obtain rfl := Option.some.inj hmem
    exact hreg
  refine (Prog.Exec.steady (fun _ _ _ _ he h => device_offPort he h)
    (uses_updateReg 0 agb0RegPwrMgmt1 assign ?_ ?_ ?_) hexec).1
  · exact fun len => offPort_uninit
  · exact hoff _ rfl
  · exact fun b => hoff _ rfl

end

/-! ## The loops -/

theorem toNat_loByte (w : BitVec 16) : (loByte w).toNat = w.toNat % 256 := by
  unfold loByte
  rw [BitVec.toNat_setWidth, BitVec.toNat_and, show (0xff : BitVec 16).toNat = 2 ^ 8 - 1 from rfl,
    Nat.and_two_pow_sub_one_eq_mod]
  omega

theorem toNat_hiByte (w : BitVec 16) : (hiByte w).toNat = w.toNat / 256 := by
  have hlt := w.isLt
  unfold hiByte
  rw [BitVec.toNat_setWidth, BitVec.toNat_ushiftRight, Nat.shiftRight_eq_div_pow]
  omega

/-- The low byte moves with the address. -/
theorem loByte_add (reg : BitVec 16) (n : Nat) :
    loByte (reg + BitVec.ofNat 16 n) = loByte reg + BitVec.ofNat 8 n := by
  apply BitVec.eq_of_toNat_eq
  rw [BitVec.toNat_add, toNat_loByte, toNat_loByte, BitVec.toNat_add, BitVec.toNat_ofNat,
    BitVec.toNat_ofNat]
  omega

theorem length_drop_burst {n fuel : Nat} {b : Byte} {data : List Byte} (hn : 0 < n)
    (hfuel : (b :: data).length ≤ fuel + 1) : ((b :: data).drop n).length ≤ fuel := by
  rw [List.length_drop]
  omega

/-- However many turns are allowed, none is taken after the last byte. -/
theorem writeMemsLoop_fuel {fuel fuel' : Nat} {reg : BitVec 16} {data : List Byte}
    (hfuel : data.length ≤ fuel) (hfuel' : data.length ≤ fuel') :
    writeMemsLoop fuel reg data = writeMemsLoop fuel' reg data := by
  induction fuel generalizing fuel' reg data with
  | zero =>
    obtain rfl : data = [] := List.length_eq_zero_iff.mp (Nat.le_zero.mp hfuel)
    cases fuel' <;> rfl
  | succ fuel ih =>
    cases data with
    | nil => cases fuel' <;> rfl
    | cons b data =>
      cases fuel' with
      | zero => exact absurd hfuel' (Nat.not_succ_le_zero _)
      | succ fuel' =>
        have hrest := @ih fuel' (reg + BitVec.ofNat 16 ((b :: data).take 16).length)
          ((b :: data).drop 16) (length_drop_burst (by decide) hfuel)
          (length_drop_burst (by decide) hfuel')
        simp only [writeMemsLoop, invMaxSerialWrite, hrest]

theorem readMemsLoop_fuel {fuel fuel' : Nat} {reg : BitVec 16} {dest : List Byte}
    (hfuel : dest.length ≤ fuel) (hfuel' : dest.length ≤ fuel') :
    readMemsLoop fuel reg dest = readMemsLoop fuel' reg dest := by
  induction fuel generalizing fuel' reg dest with
  | zero =>
    obtain rfl : dest = [] := List.length_eq_zero_iff.mp (Nat.le_zero.mp hfuel)
    cases fuel' <;> rfl
  | succ fuel ih =>
    cases dest with
    | nil => cases fuel' <;> rfl
    | cons b dest =>
      cases fuel' with
      | zero => exact absurd hfuel' (Nat.not_succ_le_zero _)
      | succ fuel' =>
        have hrest := @ih fuel' (reg + BitVec.ofNat 16 ((b :: dest).take 16).length)
          ((b :: dest).drop 16) (length_drop_burst (by decide) hfuel)
          (length_drop_burst (by decide) hfuel')
        simp only [readMemsLoop, invMaxSerialRead, hrest]

section
variable {B : Backing μ} {s s' : Port μ} {tr : BusTrace (Port μ)}

theorem exec_writeMemsLoop {fuel : Nat} {reg : BitVec 16} {data : List Byte} {retval : Status}
    (hfuel : data.length ≤ fuel)
    (hexec : Prog.Exec B.device (writeMemsLoop fuel reg data) s tr retval s') (hok : AllOk tr) :
    retval = Status.ok ∧ s'.bank = s.bank ∧
      s'.mem = B.write s.bank (loByte reg) data s.mem := by
  -- on the turns left: each moves the bytes of one burst
  induction fuel generalizing reg data s tr with
  | zero =>
    obtain rfl : data = [] := List.length_eq_zero_iff.mp (Nat.le_zero.mp hfuel)
    obtain ⟨-, rfl, rfl⟩ := hexec
    exact ⟨rfl, rfl, (B.write_nil _ _ _).symm⟩
  | succ fuel ih =>
    cases data with
    | nil =>
      obtain ⟨-, rfl, rfl⟩ := hexec
      exact ⟨rfl, rfl, (B.write_nil _ _ _).symm⟩
    | cons b data =>
      obtain ⟨s₁, t₁, t₂, rfl, hstart, hexec, hok₁, hok₂⟩ :=
        exec_guard_good (succeeds_writeByte _ _) hexec hok
      obtain rfl := exec_startAddr hstart hok₁
      obtain ⟨s₂, t₃, t₄, rfl, hburst, hexec, hok₃, hok₄⟩ :=
        exec_guard_good (succeeds_executeW _ _) hexec hok₂
      obtain ⟨hbank, hmem⟩ := exec_writeBurst hburst hok₃
      obtain ⟨hret, hbank', hmem'⟩ := ih (length_drop_burst (by decide) hfuel) hexec hok₄
      refine ⟨hret, hbank'.trans hbank, ?_⟩
      rw [hmem', hbank, hmem, loByte_add]
      exact (B.write_append _ _ _ _ _).symm.trans (by rw [List.take_append_drop])

theorem exec_readMemsLoop {fuel : Nat} {reg : BitVec 16} {dest : List Byte} {r : Read (List Byte)}
    (hfuel : dest.length ≤ fuel)
    (hexec : Prog.Exec B.device (readMemsLoop fuel reg dest) s tr r s') (hok : AllOk tr) :
    r.retval = Status.ok ∧ r.val.length = dest.length ∧ s'.bank = s.bank ∧
      B.read s.bank (loByte reg) r.val s.mem s'.mem := by
  induction fuel generalizing reg dest s tr r with
  | zero =>
    obtain rfl : dest = [] := List.length_eq_zero_iff.mp (Nat.le_zero.mp hfuel)
    obtain ⟨-, rfl, rfl⟩ := hexec
    exact ⟨rfl, rfl, rfl, B.read_nil _ _ _⟩
  | succ fuel ih =>
    cases dest with
    | nil =>
      obtain ⟨-, rfl, rfl⟩ := hexec
      exact ⟨rfl, rfl, rfl, B.read_nil _ _ _⟩
    | cons b dest =>
      obtain ⟨s₁, t₁, t₂, rfl, hstart, hexec, hok₁, hok₂⟩ :=
        exec_guard_good (succeeds_writeByte _ _) hexec hok
      obtain rfl := exec_startAddr hstart hok₁
      obtain ⟨r₁, s₂, t₃, t₄, rfl, hburst, hexec⟩ := (Prog.exec_bind _ _ _ _ _ _ _).mp hexec
      obtain ⟨hok₃, hok₄⟩ := allOk_append t₃ t₄ |>.mp hok₂
      obtain ⟨hret, hbank, hread⟩ := exec_readBurst hburst hok₃
      rw [if_neg (not_not_intro hret)] at hexec
      obtain ⟨rest, s₃, t₅, t₆, rfl, hloop, rfl, rfl, rfl⟩ :=
        (Prog.exec_bind _ _ _ _ _ _ _).mp hexec
      obtain ⟨hret', hlen, hbank', hread'⟩ :=
        ih (length_drop_burst (by decide) hfuel) hloop (allOk_append t₅ [] |>.mp hok₄).1
      refine ⟨hret', ?_, hbank'.trans hbank, ?_⟩
      · rw [List.length_append, List.length_ofFn, hlen, ← List.length_append,
          List.take_append_drop]
      · rw [hbank, loByte_add] at hread'
        refine B.read_append _ _ _ _ _ _ _ hread ?_
        rw [List.length_ofFn]
        exact hread'

end

/-! ## Calls -/

section
variable {B : Backing μ} {s s' : Port μ} {tr : BusTrace (Port μ)} {reg : BitVec 16}
  {pdev pdev' : Device}

/-- The bank the driver remembers is the selected one, where that matters for an access at `reg`. -/
def RememberedRight (pdev : Device) (s : Port μ) (reg : BitVec 16) : Prop :=
  hiByte reg = pdev.lastMemsBank → s.bank = hiByte reg

theorem selectMemsBank_good {retval : Status} (hright : RememberedRight pdev s reg)
    (hexec : Prog.Exec B.device ((selectMemsBank reg).run pdev) s tr (retval, pdev') s')
    (hok : AllOk tr) :
    retval = Status.ok ∧ pdev' = { pdev with lastMemsBank := hiByte reg } ∧
      s'.bank = hiByte reg ∧ s'.mem = s.mem := by
  rw [exec_selectMemsBank] at hexec
  by_cases hbank : hiByte reg = pdev.lastMemsBank
  · rw [if_neg (not_not_intro hbank)] at hexec
    obtain ⟨-, rfl, rfl, rfl⟩ := hexec
    refine ⟨rfl, ?_, hright hbank, rfl⟩
    rw [hbank]
  · rw [if_pos hbank] at hexec
    obtain ⟨hdev, rfl, rfl⟩ := hexec
    have hgood : retval = Status.ok := (allOk_cons _ _ |>.mp hok).1
    have hs' : s' = { s with bank := hiByte reg } :=
      device_good (e := .write agb0RegMemBankSel [hiByte reg]) hgood hdev
    rw [hs']
    exact ⟨hgood, rfl, rfl, rfl⟩

theorem writeMems_good {data : List Byte} {retval : Status} (hright : RememberedRight pdev s reg)
    (hexec : Prog.Exec B.device ((writeMems reg (some data)).run pdev) s tr (retval, pdev') s')
    (hok : AllOk tr) :
    retval = Status.ok ∧ pdev' = { pdev with lastMemsBank := hiByte reg } ∧
      s'.bank = hiByte reg ∧ s'.mem = B.write (hiByte reg) (loByte reg) data s.mem := by
  obtain ⟨result, s₁, t₁, t₂, rfl, hsel, hloop⟩ := exec_writeMems.mp hexec
  obtain ⟨hok₁, hok₂⟩ := allOk_append t₁ t₂ |>.mp hok
  obtain ⟨rfl, hpdev, hbank, hmem⟩ := selectMemsBank_good hright hsel hok₁
  rw [if_pos rfl] at hloop
  obtain ⟨hret, hbank', hmem'⟩ := exec_writeMemsLoop (Nat.le_refl _) hloop hok₂
  rw [hbank] at hbank'
  rw [hbank, hmem] at hmem'
  exact ⟨hret, hpdev, hbank', hmem'⟩

theorem readMems_good {dest : List Byte} {r : Read (Option (List Byte))}
    (hright : RememberedRight pdev s reg)
    (hexec : Prog.Exec B.device ((readMems reg (some dest)).run pdev) s tr (r, pdev') s')
    (hok : AllOk tr) :
    ∃ bytes, r = ⟨Status.ok, some bytes⟩ ∧ bytes.length = dest.length ∧
      pdev' = { pdev with lastMemsBank := hiByte reg } ∧ s'.bank = hiByte reg ∧
      B.read (hiByte reg) (loByte reg) bytes s.mem s'.mem := by
  obtain ⟨result, s₁, t₁, t₂, rfl, hsel, hloop⟩ := exec_readMems hexec
  obtain ⟨hok₁, hok₂⟩ := allOk_append t₁ t₂ |>.mp hok
  obtain ⟨rfl, hpdev, hbank, hmem⟩ := selectMemsBank_good hright hsel hok₁
  rw [if_pos rfl] at hloop
  obtain ⟨rest, hloop, rfl⟩ := hloop
  obtain ⟨hret, hlen, hbank', hread⟩ := exec_readMemsLoop (Nat.le_refl _) hloop hok₂
  rw [hbank] at hbank'
  rw [hbank, hmem] at hread
  exact ⟨rest.val, by rw [hret], hlen, hpdev, hbank', hread⟩

end

/-! ## A device on which nothing fails -/

/-- Reads of `n` bytes are answered by `answer`, which also says what becomes of the memory. -/
def Backing.chip (B : Backing μ) (answer : Byte → Byte → (n : Nat) → μ → (Fin n → Byte) × μ) :
    Handler (Port μ) BusEvent BusEvent.Resp
  | .read reg len, s =>
    if reg = agb0RegMemRW then
      (⟨Status.ok, (answer s.bank s.start len s.mem).1⟩,
        { s with mem := (answer s.bank s.start len s.mem).2 })
    else (⟨Status.ok, fun _ => 0⟩, s)
  | .write reg data, s =>
    (Status.ok,
      if reg = agb0RegMemBankSel then { s with bank := data.headD s.bank }
      else if reg = agb0RegMemStartAddr then { s with start := data.headD s.start }
      else if reg = agb0RegMemRW then { s with mem := B.write s.bank s.start data s.mem }
      else s)
  | .uninit _, s => (fun _ => 0, s)
  | .spiOpen _ _, s => ((0 : Int), s)

section
variable {B : Backing μ} {answer : Byte → Byte → (n : Nat) → μ → (Fin n → Byte) × μ}

theorem chip_good (e : BusEvent) (s : Port μ) : Good e (B.chip answer e s).1 := by
  cases e with
  | read reg len =>
    show (B.chip answer (.read reg len) s).1.retval = Status.ok
    simp only [Backing.chip]
    split <;> rfl
  | write reg data => exact show Status.ok = Status.ok from rfl
  | uninit len => trivial
  | spiOpen csPin freq => trivial

theorem chip_device (hanswer : ∀ bank offset n m,
      B.read bank offset (List.ofFn (answer bank offset n m).1) m (answer bank offset n m).2)
    (s : Port μ) (e : BusEvent) (r : e.Resp) (s' : Port μ)
    (h : (B.chip answer).env s e r s') : B.device s e r s' := by
  obtain ⟨rfl, rfl⟩ := Handler.answer_eq h
  unfold Backing.device
  rw [if_pos (chip_good e s)]
  cases e with
  | read reg len =>
    by_cases hreg : reg = agb0RegMemRW
    · simp only [Backing.chip, Backing.effect, if_pos hreg, true_and]
      exact hanswer _ _ _ _
    · simp only [Backing.chip, Backing.effect, if_neg hreg]
  | write reg data =>
    by_cases hbank : reg = agb0RegMemBankSel
    · simp only [Backing.chip, Backing.effect, if_pos hbank]
    · by_cases hstart : reg = agb0RegMemStartAddr
      · simp only [Backing.chip, Backing.effect, if_neg hbank, if_pos hstart]
      · by_cases hport : reg = agb0RegMemRW
        · simp only [Backing.chip, Backing.effect, if_neg hbank, if_neg hstart, if_pos hport]
          exact ⟨s.start, rfl⟩
        · simp only [Backing.chip, Backing.effect, if_neg hbank, if_neg hstart, if_neg hport]
  | uninit len => rfl
  | spiOpen csPin freq => rfl

/-- What the chip answers is an execution on the device. -/
theorem exec_chip {α : Type} (hanswer : ∀ bank offset n m,
      B.read bank offset (List.ofFn (answer bank offset n m).1) m (answer bank offset n m).2)
    (p : Drv α) (pdev : Device) (s : Port μ) :
    let out := Prog.run (B.chip answer) (p.run pdev) s
    Prog.Exec B.device (p.run pdev) s (Prog.trace (B.chip answer) (p.run pdev) s)
        (out.1.1, out.1.2) out.2 ∧
      AllOk (Prog.trace (B.chip answer) (p.run pdev) s) :=
  ⟨(Prog.exec_run_pair _ (p.run pdev) s).mono (chip_device hanswer),
    Prog.allGood_trace chip_good _ s⟩

end

end SimuSound.Imu
