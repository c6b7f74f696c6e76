import SimuSound.Imu.FirmwareImage
import SimuSound.Imu.MemoryRange

/-!
# FirmwareChunks — the turns of the two loops of the firmware load

Both loops cut the chunk that would move across a bank, but to the length of what lies beyond it.
The turns are logged here beside the transfers they make; which addresses and sizes keep every
chunk in its bank is then a matter of the offset in the last 16 bytes of the first bank.
-/

namespace SimuSound.Imu

open Reasoning

/-! ## Turns -/

/-- A turn of either loop: `memaddr`, the bytes remaining, and the length of the chunk. -/
structure Turn where
  memaddr : BitVec 16
  size : Nat
  writeSize : Nat
  deriving DecidableEq

/-- The turn the loops take at `memaddr`. -/
def Turn.next (memaddr : BitVec 16) (size : Nat) : Turn :=
  ⟨memaddr, size, chunkSize 16 size memaddr⟩

/-- The chunk is not empty, not too long, and its bytes are all in one bank. -/
structure Turn.InBank (turn : Turn) : Prop where
  pos : 1 ≤ turn.writeSize
  le_max : turn.writeSize ≤ 16
  le_size : turn.writeSize ≤ turn.size
  bank : ∀ i < turn.writeSize, (turn.memaddr.toNat + i) / 256 = turn.memaddr.toNat / 256

/-- The turns of a loop that is not left early. -/
def turnsFrom : Nat → BitVec 16 → Nat → List Turn
  | 0, _, _ => []
  | _ + 1, _, 0 => []
  | fuel + 1, memaddr, size =>
    let writeSize := chunkSize 16 size memaddr
    Turn.next memaddr size ::
      turnsFrom fuel (memaddr + BitVec.ofNat 16 writeSize) (size - writeSize)

/-- `firmwareWriteLoop` with a log of its turns. -/
def firmwareWriteTurns : Nat → BitVec 16 → List Byte → Drv (Status × List Turn)
  | 0, _, _ => pure (Status.ok, [])
  | _ + 1, _, [] => pure (Status.ok, [])
  | fuel + 1, memaddr, data => do
    let writeSize := chunkSize invMaxSerialWrite data.length memaddr
    let result ← writeMems memaddr (some (data.take writeSize))
    if result ≠ Status.ok then return (result, [⟨memaddr, data.length, writeSize⟩])
    let rest ←
      firmwareWriteTurns fuel (memaddr + BitVec.ofNat 16 writeSize) (data.drop writeSize)
    return (rest.1, ⟨memaddr, data.length, writeSize⟩ :: rest.2)

/-- `firmwareVerifyLoop` with a log of its turns. -/
def firmwareVerifyTurns :
    Nat → BitVec 16 → List Byte → List Byte → Bool → Drv (Read Bool × List Turn)
  | 0, _, _, _, flag => pure (⟨Status.ok, flag⟩, [])
  | _ + 1, _, [], _, flag => pure (⟨Status.ok, flag⟩, [])
  | fuel + 1, memaddr, data, dataCmp, flag => do
    let writeSize := chunkSize invMaxSerialRead data.length memaddr
    let r ← readMems memaddr (some (dataCmp.take writeSize))
    let dataCmp := r.val.getD [] ++ dataCmp.drop writeSize
    let flag := flag || r.retval ≠ Status.ok
    if dataCmp.take writeSize ≠ data.take writeSize then
      return (⟨Status.dmpVerifyFail, flag⟩, [⟨memaddr, data.length, writeSize⟩])
    let rest ← firmwareVerifyTurns fuel (memaddr + BitVec.ofNat 16 writeSize)
      (data.drop writeSize) dataCmp flag
    return (rest.1, ⟨memaddr, data.length, writeSize⟩ :: rest.2)

/-- `inv_icm20948_firmware_load` with a log of the turns of its loops. -/
def firmwareLoadTurns (dataStart : List Byte) (loadAddr : BitVec 16) :
    Drv (Status × List Turn) := do
  let garbage ← uninit 16
  let pdev ← get
  if pdev.dmpFirmwareAvailable = false then return (Status.dmpNotSupported, [])
  if pdev.firmwareLoaded then return (Status.ok, [])
  let result ← sleep false
  if result ≠ Status.ok then return (result, [])
  let result ← lowPower false
  if result ≠ Status.ok then return (result, [])
  let written ← firmwareWriteTurns dataStart.length loadAddr dataStart
  if written.1 ≠ Status.ok then return written
  let verified ←
    firmwareVerifyTurns dataStart.length loadAddr dataStart (List.ofFn garbage) false
  let turns := written.2 ++ verified.2
  if verified.1.retval ≠ Status.ok then return (verified.1.retval, turns)
  let result ← lowPower true
  if result ≠ Status.ok then return (result, turns)
  modify fun pdev => if verified.1.val then pdev else { pdev with firmwareLoaded := true }
  return (result, turns)

/-- In every run of the load, every chunk of both loops is in one bank. -/
def ChunksInBank (image : List Byte) (loadAddr : BitVec 16) : Prop :=
  ∀ (σ : Type) (env : Env σ BusEvent BusEvent.Resp) (pdev pdev' : Device) (s s' : σ)
    (tr : BusTrace σ) (retval : Status),
    Prog.Exec env ((invFirmwareLoad image loadAddr).run pdev) s tr (retval, pdev') s' →
      ∃ turns, Prog.Exec env ((firmwareLoadTurns image loadAddr).run pdev) s tr
          ((retval, turns), pdev') s' ∧ ∀ turn ∈ turns, turn.InBank

/-! ## Offsets that arrive at the end of the bank -/

/-- Doubling `a` as long as it is below `m`, then adding `m`, arrives at 16. -/
def ArrivesAt16 (m a : Nat) : Prop :=
  ∃ j, (∀ i < j, a * 2 ^ i < m) ∧ m ≤ a * 2 ^ j ∧ a * 2 ^ j ≤ 16 ∧ m ∣ 16 - a * 2 ^ j

/-- The image is loaded from a multiple of 16, or ends in the bank it starts in, or the chunks that
are cut because of the bytes beyond that bank come to an end with it. -/
def StaysInBanks (loadAddr size : Nat) : Prop :=
  loadAddr % 16 = 0 ∨ loadAddr % 256 + size ≤ 256 ∨
    ArrivesAt16 (min (loadAddr % 256 + size - 256) 16) (loadAddr % 16)

section
variable {m a : Nat}

theorem arrivesAt16_double (hlt : a < m) : ArrivesAt16 m a ↔ ArrivesAt16 m (a + a) := by
  have hpow (i : Nat) : (a + a) * 2 ^ i = a * 2 ^ (i + 1) := by
    rw [pow_succ, ← Nat.mul_two, Nat.mul_assoc, Nat.mul_comm 2]
  unfold ArrivesAt16
  simp only [hpow]
  constructor
  · rintro ⟨j, hbefore, hle, hend⟩
    cases j with
    | zero =>
      rw [pow_zero, Nat.mul_one] at hle
      omega
    | succ j => exact ⟨j, fun i hi => hbefore (i + 1) (by omega), hle, hend⟩
  · rintro ⟨j, hbefore, hle, hend⟩
    refine ⟨j + 1, fun i hi => ?_, hle, hend⟩
    cases i with
    | zero => omega
    | succ i => exact hbefore i (by omega)

theorem arrivesAt16_of_le (hle : m ≤ a) : ArrivesAt16 m a ↔ a ≤ 16 ∧ m ∣ 16 - a := by
  unfold ArrivesAt16
  constructor
  · rintro ⟨j, hbefore, -, hend⟩
    cases j with
    | zero =>
      rw [pow_zero, Nat.mul_one] at hend
      exact hend
    | succ j =>
      have hfirst := hbefore 0 (by omega)
      rw [pow_zero, Nat.mul_one] at hfirst
      omega
  · intro hend
    refine ⟨0, fun i hi => absurd hi (Nat.not_lt_zero i), ?_, ?_⟩
    · rw [pow_zero, Nat.mul_one]
      exact hle
    · rw [pow_zero, Nat.mul_one]
      exact hend

/-- One cut chunk: it moves the offset by `min m a`, and that must not pass 16. -/
theorem arrivesAt16_step (hm : 0 < m) (hm16 : m ≤ 16) (ha : 0 < a) (ha16 : a < 16) :
    ArrivesAt16 m a ↔ a + min m a = 16 ∨ a + min m a < 16 ∧ ArrivesAt16 m (a + min m a) := by
  by_cases hlt : a < m
  · rw [arrivesAt16_double hlt, Nat.min_eq_right (by omega)]
    constructor
    · intro h
      have h16 : a + a ≤ 16 := by
        obtain ⟨j, -, -, hle, -⟩ := h
        exact (Nat.le_mul_of_pos_right _ (Nat.two_pow_pos j)).trans hle
      rcases Nat.lt_or_eq_of_le h16 with h16 | h16
      · exact Or.inr ⟨h16, h⟩
      · exact Or.inl h16
    · rintro (h16 | ⟨-, h⟩)
      · rw [arrivesAt16_of_le (by omega), h16]
        exact ⟨Nat.le_refl _, Nat.dvd_zero m⟩
      · exact h
  · have hle : m ≤ a := by omega
    rw [arrivesAt16_of_le hle, Nat.min_eq_left hle, arrivesAt16_of_le (by omega)]
    constructor
    · rintro ⟨-, hdvd⟩
      have hpast : m ≤ 16 - a := Nat.le_of_dvd (by omega) hdvd
      by_cases h16 : a + m = 16
      · exact Or.inl h16
      · refine Or.inr ⟨by omega, by omega, ?_⟩
        rw [← Nat.sub_sub]
        exact Nat.dvd_sub hdvd (Nat.dvd_refl m)
    · rintro (h16 | ⟨-, h16, hdvd⟩)
      · refine ⟨by omega, ?_⟩
        rw [show 16 - a = m by omega]
      · refine ⟨by omega, ?_⟩
        rw [show 16 - a = 16 - (a + m) + m by omega]
        exact Nat.dvd_add hdvd (Nat.dvd_refl m)

end

/-! ## One turn -/

section
variable {memaddr : BitVec 16} {size : Nat}

theorem chunkSize_eq :
    chunkSize 16 size memaddr =
      if memaddr.toNat % 256 + min size 16 ≤ 256 then min size 16
      else memaddr.toNat % 256 + min size 16 - 256 := by
  have hoffset := toNat_bankOffset memaddr
  unfold chunkSize
  simp only
  split <;> split <;> split <;> omega

theorem inBank_next (hsize : 0 < size) :
    (Turn.next memaddr size).InBank ↔ memaddr.toNat % 256 + chunkSize 16 size memaddr ≤ 256 := by
  have hpos : 0 < chunkSize 16 size memaddr := chunkSize_pos (by decide) hsize
  obtain ⟨hle, hmax⟩ := @chunkSize_le 16 size memaddr
  constructor
  · intro h
    have hlast : (memaddr.toNat + (chunkSize 16 size memaddr - 1)) / 256 = memaddr.toNat / 256 :=
      h.bank _ (Nat.sub_lt hpos Nat.one_pos)
    omega
  · intro h
    refine ⟨hpos, hmax, hle, ?_⟩
    show ∀ i < chunkSize 16 size memaddr, _
    intro i hi
    show (memaddr.toNat + i) / 256 = memaddr.toNat / 256
    omega

theorem turnsFrom_succ (fuel : Nat) (memaddr : BitVec 16) (size : Nat) :
    turnsFrom (fuel + 1) memaddr (size + 1) =
      Turn.next memaddr (size + 1) ::
        turnsFrom fuel (memaddr + BitVec.ofNat 16 (chunkSize 16 (size + 1) memaddr))
          (size + 1 - chunkSize 16 (size + 1) memaddr) := rfl

theorem staysInBanks_zero (addr : Nat) : StaysInBanks addr 0 := by
  apply Or.inr
  apply Or.inl
  omega

/-- A cut chunk moves the offset in the last 16 bytes of the bank. -/
theorem staysInBanks_cut {addr : Nat} (halign : addr % 16 ≠ 0)
    (hbeyond : 256 < addr % 256 + size) (hcut : 256 < addr % 256 + min size 16) :
    let n := addr % 256 + min size 16 - 256
    StaysInBanks addr size ↔ addr % 256 + n ≤ 256 ∧ StaysInBanks (addr + n) (size - n) := by
  intro n
  have hoffset : addr % 256 = 240 + addr % 16 := by omega
  obtain ⟨m, hm⟩ : ∃ m, min (addr % 256 + size - 256) 16 = m := ⟨_, rfl⟩
  have hn : n = min m (addr % 16) := by omega
  unfold StaysInBanks
  rw [hn, hm, or_iff_right halign, or_iff_right (Nat.not_le.mpr hbeyond),
    arrivesAt16_step (by omega) (by omega) (by omega) (by omega)]
  rcases Nat.lt_trichotomy (addr % 16 + min m (addr % 16)) 16 with hlt | heq | hgt
  · -- still in the last 16 bytes, with as much beyond the bank
    have hmod : (addr + min m (addr % 16)) % 16 = addr % 16 + min m (addr % 16) := by omega
    have hrest : (addr + min m (addr % 16)) % 256 + (size - min m (addr % 16)) =
        addr % 256 + size := by omega
    rw [hrest, hm, hmod, or_iff_right (Nat.ne_of_lt hlt), and_iff_right hlt,
      or_iff_right (by omega), or_iff_right (Nat.not_le.mpr hbeyond)]
    exact (and_iff_right (by omega)).symm
  · -- arrived at the next bank
    exact iff_of_true (Or.inl heq) ⟨by omega, Or.inl (by omega)⟩
  · exact iff_of_false (by omega) (by omega)

/-- A turn keeps its chunk in the bank and leaves an address that stays in its banks, exactly when
the address it starts from does. -/
theorem staysInBanks_step (hsize : 0 < size) :
    StaysInBanks memaddr.toNat size ↔
      (Turn.next memaddr size).InBank ∧
        StaysInBanks (memaddr.toNat + chunkSize 16 size memaddr)
          (size - chunkSize 16 size memaddr) := by
  rw [inBank_next hsize, chunkSize_eq]
  generalize memaddr.toNat = addr
  by_cases halign : addr % 16 = 0
  · -- a whole chunk ends at a multiple of 16 again
    rw [if_pos (by omega)]
    unfold StaysInBanks
    apply iff_of_true (Or.inl halign)
    refine ⟨by omega, ?_⟩
    by_cases hlast : size ≤ 16
    · exact Or.inr (Or.inl (by omega))
    · exact Or.inl (by omega)
  by_cases hends : addr % 256 + size ≤ 256
  · rw [if_pos (by omega)]
    unfold StaysInBanks
    apply iff_of_true (Or.inr (Or.inl hends))
    exact ⟨by omega, Or.inr (Or.inl (by omega))⟩
  by_cases hwhole : addr % 256 + min size 16 ≤ 256
  · -- a whole chunk before the last 16 bytes leaves the offset modulo 16
    have hrest : (addr + 16) % 256 + (size - 16) = addr % 256 + size := by omega
    rw [if_pos hwhole, show min size 16 = 16 by omega]
    unfold StaysInBanks
    rw [hrest, Nat.add_mod_right]
    exact (and_iff_right (by omega)).symm
  · rw [if_neg hwhole]
    exact staysInBanks_cut halign (Nat.not_le.mp hends) (Nat.not_le.mp hwhole)

/-- Every turn of a loop that is not left early keeps its chunk in the bank. -/
theorem turnsFrom_inBank_iff {fuel : Nat} (hfuel : size ≤ fuel)
    (hend : memaddr.toNat + size ≤ 65536) :
    (∀ turn ∈ turnsFrom fuel memaddr size, turn.InBank) ↔ StaysInBanks memaddr.toNat size := by
  induction fuel generalizing memaddr size with
  | zero =>
    obtain rfl : size = 0 := Nat.le_zero.mp hfuel
    exact iff_of_true (List.forall_mem_nil _) (staysInBanks_zero _)
  | succ fuel ih =>
    cases size with
    | zero => exact iff_of_true (List.forall_mem_nil _) (staysInBanks_zero _)
    | succ size =>
      have hpos : 0 < chunkSize 16 (size + 1) memaddr :=
        chunkSize_pos (by decide) (Nat.succ_pos size)
      have hle := (@chunkSize_le 16 (size + 1) memaddr).1
      rw [turnsFrom_succ, List.forall_mem_cons, staysInBanks_step (Nat.succ_pos size)]
      apply and_congr_right'
      generalize chunkSize 16 (size + 1) memaddr = n at hpos hle
      have hmoved : (memaddr + BitVec.ofNat 16 n).toNat = (memaddr.toNat + n) % 65536 := by
        rw [BitVec.toNat_add, BitVec.toNat_ofNat]
        omega
      rw [ih (by omega) (by omega)]
      by_cases hlast : size + 1 - n = 0
      · rw [hlast]
        exact iff_of_true (staysInBanks_zero _) (staysInBanks_zero _)
      · rw [hmoved, Nat.mod_eq_of_lt (by omega)]

end

/-! ## The log is one of the same transfers -/

theorem firmwareWriteTurns_cons (fuel : Nat) (memaddr : BitVec 16) (b : Byte)
    (data : List Byte) :
    firmwareWriteTurns (fuel + 1) memaddr (b :: data) =
      let n := chunkSize 16 (b :: data).length memaddr
      let turn := Turn.next memaddr (b :: data).length
      writeMems memaddr (some ((b :: data).take n)) >>= fun result =>
        if result ≠ Status.ok then pure (result, [turn])
        else firmwareWriteTurns fuel (memaddr + BitVec.ofNat 16 n) ((b :: data).drop n) >>=
          fun rest => pure (rest.1, turn :: rest.2) := rfl

theorem firmwareVerifyTurns_cons (fuel : Nat) (memaddr : BitVec 16) (b : Byte)
    (data dataCmp : List Byte) (flag : Bool) :
    firmwareVerifyTurns (fuel + 1) memaddr (b :: data) dataCmp flag =
      let n := chunkSize 16 (b :: data).length memaddr
      let turn := Turn.next memaddr (b :: data).length
      readMems memaddr (some (dataCmp.take n)) >>= fun r =>
        let dataCmp := r.val.getD [] ++ dataCmp.drop n
        let flag := flag || r.retval ≠ Status.ok
        if dataCmp.take n ≠ (b :: data).take n then
          pure (⟨Status.dmpVerifyFail, flag⟩, [turn])
        else firmwareVerifyTurns fuel (memaddr + BitVec.ofNat 16 n) ((b :: data).drop n) dataCmp
          flag >>= fun rest => pure (rest.1, turn :: rest.2) := rfl

/-- The result of a loop does not depend on what is logged before its rest. -/
theorem fst_map_logged {α : Type} (turn : Turn) (p : Drv (α × List Turn)) :
    Prod.fst <$> (p >>= fun rest => pure (rest.1, turn :: rest.2)) = Prod.fst <$> p := by
  rw [map_bind, map_eq_pure_bind]
  simp only [map_pure]

theorem firmwareWriteLoop_eq_turns (fuel : Nat) (memaddr : BitVec 16) (data : List Byte) :
    firmwareWriteLoop fuel memaddr data = Prod.fst <$> firmwareWriteTurns fuel memaddr data := by
  induction fuel generalizing memaddr data with
  | zero => rfl
  | succ fuel ih =>
    cases data with
    | nil => rfl
    | cons b data =>
      rw [firmwareWriteLoop_cons, firmwareWriteTurns_cons, map_bind]
      apply bind_congr
      intro result
      split
      · rw [map_pure]
      · rw [ih, fst_map_logged]

theorem firmwareVerifyLoop_eq_turns (fuel : Nat) (memaddr : BitVec 16)
    (data dataCmp : List Byte) (flag : Bool) :
    firmwareVerifyLoop fuel memaddr data dataCmp flag =
      Prod.fst <$> firmwareVerifyTurns fuel memaddr data dataCmp flag := by
  induction fuel generalizing memaddr data dataCmp flag with
  | zero => rfl
  | succ fuel ih =>
    cases data with
    | nil => rfl
    | cons b data =>
      rw [firmwareVerifyLoop_cons, firmwareVerifyTurns_cons, map_bind]
      apply bind_congr
      intro r
      simp only
      split
      · rw [map_pure]
      · rw [ih, fst_map_logged]

/-- A failure ends the load, and the log with it. -/
theorem fst_map_guard {p : Drv Status} {q : Status → Drv Status}
    {logged : Status → Drv (Status × List Turn)} (turns : List Turn)
    (h : ∀ result, q result = Prod.fst <$> logged result) :
    (p >>= fun result => if result ≠ Status.ok then pure result else q result) =
      Prod.fst <$> (p >>= fun result => if result ≠ Status.ok then pure (result, turns)
        else logged result) := by
  rw [map_bind]
  apply bind_congr
  intro result
  split
  · rw [map_pure]
  · exact h result

theorem invFirmwareLoad_eq_turns (image : List Byte) (loadAddr : BitVec 16) :
    invFirmwareLoad image loadAddr = Prod.fst <$> firmwareLoadTurns image loadAddr := by
  unfold invFirmwareLoad firmwareLoadTurns
  rw [map_bind]
  apply bind_congr
  intro garbage
  rw [map_bind]
  apply bind_congr
  intro pdev
  split
  · rw [map_pure]
  split
  · rw [map_pure]
  apply fst_map_guard
  intro _
  apply fst_map_guard
  intro _
  rw [firmwareWriteLoop_eq_turns, map_bind, bind_map_left]
  apply bind_congr
  intro written
  split
  · rw [map_pure]
  rw [firmwareVerifyLoop_eq_turns, map_bind, bind_map_left]
  apply bind_congr
  intro verified
  split
  · rw [map_pure]
  apply fst_map_guard
  intro _
  rw [map_bind]
  simp only [map_pure]

/-! ## The turns of a run -/

theorem turnsFrom_cons (memaddr : BitVec 16) (b : Byte) (data : List Byte) (fuel : Nat) :
    turnsFrom (fuel + 1) memaddr (b :: data).length =
      Turn.next memaddr (b :: data).length ::
        turnsFrom fuel (memaddr + BitVec.ofNat 16 (chunkSize 16 (b :: data).length memaddr))
          ((b :: data).drop (chunkSize 16 (b :: data).length memaddr)).length := by
  rw [List.length_drop]
  exact turnsFrom_succ fuel memaddr data.length

/-- The write loop takes its turns in order, and all of them unless a transfer fails. -/
theorem ends_firmwareWriteTurns (fuel : Nat) (memaddr : BitVec 16) (data : List Byte)
    (pdev : Device) :
    Prog.Ends (fun r : (Status × List Turn) × Device =>
        r.1.2 <+: turnsFrom fuel memaddr data.length ∧
          (r.1.1 = Status.ok → r.1.2 = turnsFrom fuel memaddr data.length))
      ((firmwareWriteTurns fuel memaddr data).run pdev) := by
  induction fuel generalizing memaddr data pdev with
  | zero => exact ⟨List.prefix_rfl, fun _ => rfl⟩
  | succ fuel ih =>
    cases data with
    | nil => exact ⟨List.prefix_rfl, fun _ => rfl⟩
    | cons b data =>
      rw [firmwareWriteTurns_cons, turnsFrom_cons, StateT.run_bind, Prog.ends_bind]
      apply Prog.ends_of_forall
      intro r
      by_cases hok : r.1 = Status.ok
      · show Prog.Ends _ (StateT.run (ite (r.1 ≠ Status.ok) _ _) r.2)
        rw [if_neg (not_not_intro hok), StateT.run_bind, Prog.ends_bind]
        apply (ih _ _ r.2).mono
        intro rest hrest
        refine ⟨List.cons_prefix_cons.mpr ⟨rfl, hrest.1⟩, fun hret => ?_⟩
        show _ :: rest.1.2 = _
        rw [hrest.2 hret]
      · show Prog.Ends _ (StateT.run (ite (r.1 ≠ Status.ok) _ _) r.2)
        rw [if_pos hok]
        refine ⟨List.cons_prefix_cons.mpr ⟨rfl, List.nil_prefix⟩, fun hret => ?_⟩
        exact absurd hret hok

/-- The verify loop takes the same turns, up to the first chunk that differs. -/
theorem ends_firmwareVerifyTurns (fuel : Nat) (memaddr : BitVec 16) (data dataCmp : List Byte)
    (flag : Bool) (pdev : Device) :
    Prog.Ends (fun r : (Read Bool × List Turn) × Device =>
        r.1.2 <+: turnsFrom fuel memaddr data.length)
      ((firmwareVerifyTurns fuel memaddr data dataCmp flag).run pdev) := by
  induction fuel generalizing memaddr data dataCmp flag pdev with
  | zero => exact List.prefix_rfl
  | succ fuel ih =>
    cases data with
    | nil => exact List.prefix_rfl
    | cons b data =>
      rw [firmwareVerifyTurns_cons, turnsFrom_cons, StateT.run_bind, Prog.ends_bind]
      apply Prog.ends_of_forall
      intro r
      show Prog.Ends _ (StateT.run (ite _ _ _) r.2)
      split
      · exact List.cons_prefix_cons.mpr ⟨rfl, List.nil_prefix⟩
      · rw [StateT.run_bind, Prog.ends_bind]
        apply (ih _ _ _ _ r.2).mono
        intro rest hrest
        exact List.cons_prefix_cons.mpr ⟨rfl, hrest⟩

/-- Where a log may end: on a failure, or later. -/
theorem ends_guardM {α : Type} {Q : α × Device → Prop} {p : Drv Status} {fail : Status → α}
    {q : Status → Drv α} (hfail : ∀ result pdev, Q (fail result, pdev))
    (hq : ∀ result pdev, Prog.Ends Q ((q result).run pdev)) (pdev : Device) :
    Prog.Ends Q ((p >>= fun result => if result ≠ Status.ok then pure (fail result)
      else q result).run pdev) := by
  rw [StateT.run_bind, Prog.ends_bind]
  apply Prog.ends_of_forall
  intro r
  show Prog.Ends Q (StateT.run (ite (r.1 ≠ Status.ok) _ _) r.2)
  split
  · exact hfail r.1 r.2
  · exact hq r.1 r.2

/-- After the verify loop nothing more is logged. -/
theorem ends_afterVerify (Q : List Turn → Prop) {turns : List Turn} (hturns : Q turns)
    (r : Read Bool) (pdev : Device) :
    Prog.Ends (fun r : (Status × List Turn) × Device => Q r.1.2)
      ((if r.retval ≠ Status.ok then pure (r.retval, turns) else do
        let result ← liftM (lowPower true)
        if result ≠ Status.ok then return (result, turns)
        modify fun pdev => if r.val then pdev else { pdev with firmwareLoaded := true }
        return (result, turns) : Drv (Status × List Turn)).run pdev) := by
  split
  · exact hturns
  · apply ends_guardM
    · exact fun _ _ => hturns
    · exact fun _ _ => hturns

section
variable {image : List Byte} {loadAddr : BitVec 16}

/-- Every turn of the load is one that a loop takes when it is not left early. -/
theorem ends_firmwareLoadTurns (pdev : Device) :
    Prog.Ends (fun r : (Status × List Turn) × Device =>
        ∀ turn ∈ r.1.2, turn ∈ turnsFrom image.length loadAddr image.length)
      ((firmwareLoadTurns image loadAddr).run pdev) := by
  have hnil : ∀ turn ∈ ([] : List Turn), turn ∈ turnsFrom image.length loadAddr image.length :=
    List.forall_mem_nil _
  unfold firmwareLoadTurns
  rw [StateT.run_bind, Prog.ends_bind]
  apply Prog.ends_of_forall
  intro garbage
  rw [StateT.run_bind, StateT.run_get, pure_bind]
  simp only
  split
  · exact hnil
  split
  · exact hnil
  apply ends_guardM fun _ _ => hnil
  intro _ pdev
  apply ends_guardM fun _ _ => hnil
  intro _ pdev
  rw [StateT.run_bind, Prog.ends_bind]
  apply (ends_firmwareWriteTurns image.length loadAddr image pdev).mono
  intro written hwritten
  show Prog.Ends _ (StateT.run (ite (written.1.1 ≠ Status.ok) _ _) written.2)
  split
  · exact fun turn hturn => hwritten.1.subset hturn
  · rw [StateT.run_bind, Prog.ends_bind]
    apply (ends_firmwareVerifyTurns image.length loadAddr image _ false written.2).mono
    intro verified hverified
    apply ends_afterVerify fun turns =>
      ∀ turn ∈ turns, turn ∈ turnsFrom image.length loadAddr image.length
    intro turn hturn
    rcases List.mem_append.mp hturn with hturn | hturn
    · exact hwritten.1.subset hturn
    · exact hverified.subset hturn

/-- Without failures the write loop takes all its turns. -/
theorem firmwareWriteTurns_good {μ : Type} {B : Backing μ} {fuel : Nat} {memaddr : BitVec 16}
    {data : List Byte} {pdev pdev' : Device} {s s' : Port μ} {tr : BusTrace (Port μ)}
    {written : Status × List Turn} (hsync : pdev.lastMemsBank = s.bank)
    (hexec : Prog.Exec B.device ((firmwareWriteTurns fuel memaddr data).run pdev) s tr
      (written, pdev') s') (hok : AllOk tr) : written.1 = Status.ok := by
  induction fuel generalizing memaddr data pdev pdev' s s' tr written with
  | zero =>
    obtain ⟨-, rfl, -, -⟩ := Prog.exec_pureM.mp hexec
    rfl
  | succ fuel ih =>
    cases data with
    | nil =>
      obtain ⟨-, rfl, -, -⟩ := Prog.exec_pureM.mp hexec
      rfl
    | cons b data =>
      rw [firmwareWriteTurns_cons] at hexec
      obtain ⟨result, pdev₁, s₁, t₁, t₂, rfl, hwrite, hexec⟩ := exec_guardM.mp hexec
      obtain ⟨hok₁, hok₂⟩ := allOk_append t₁ t₂ |>.mp hok
      have hright : RememberedRight pdev s memaddr := fun hbank => by rw [← hsync, hbank]
      obtain ⟨rfl, rfl, hbank, -⟩ := writeMems_good hright hwrite hok₁
      rw [if_pos rfl] at hexec
      obtain ⟨rest, pdev₂, s₂, t₃, t₄, rfl, hrest, hret⟩ := Prog.exec_bindM.mp hexec
      obtain ⟨-, rfl, -, -⟩ := Prog.exec_pureM.mp hret
      have hall : rest.1 = Status.ok := ih hbank.symm hrest (allOk_append t₃ t₄ |>.mp hok₂).1
      exact hall

/-- A load on which nothing fails takes all turns of the write loop. -/
theorem mem_firmwareLoadTurns {retval : Status} {turns : List Turn} {pdev' : Device}
    {s s' : Port (List MemAccess)} {tr : BusTrace (Port (List MemAccess))} (hbank : s.bank = 255)
    (hexec : Prog.Exec logBacking.device ((firmwareLoadTurns image loadAddr).run (deviceAt 255)) s
      tr ((retval, turns), pdev') s') (hok : AllOk tr) :
    turnsFrom image.length loadAddr image.length <+: turns := by
  unfold firmwareLoadTurns at hexec
  obtain ⟨garbage, pdev₀, s₀, t₀, t, rfl, huninit, hsteps⟩ := Prog.exec_bindM.mp hexec
  obtain ⟨-, hok⟩ := allOk_append t₀ t |>.mp hok
  obtain ⟨hbytes, rfl⟩ := (Prog.exec_lift _ _ _ _ _ _ _ _).mp huninit
  obtain ⟨hdev, -⟩ := (Prog.exec_perform _ _ _ _ _ _).mp hbytes
  obtain rfl := device_offPort offPort_uninit hdev
  rw [StateT.run_bind, StateT.run_get, pure_bind, if_neg (by decide), if_neg (by decide)] at hsteps
  obtain ⟨t, hexec, hok⟩ := guard_power hsteps hok
  obtain ⟨t, hexec, hok⟩ := guard_power hexec hok
  obtain ⟨written, pdev₁, s₁, t₁, t₂, rfl, hwrite, hexec⟩ := Prog.exec_bindM.mp hexec
  have hret := firmwareWriteTurns_good hbank.symm hwrite (allOk_append t₁ t₂ |>.mp hok).1
  have hall := (ends_firmwareWriteTurns _ _ _ _).exec hwrite
  rw [← hall.2 hret]
  rw [if_neg (not_not_intro hret)] at hexec
  obtain ⟨verified, pdev₂, s₂, t₃, t₄, -, -, hexec⟩ := Prog.exec_bindM.mp hexec
  exact (ends_afterVerify (written.2 <+: ·) (List.prefix_append _ _) verified.1 pdev₂).exec hexec

theorem chunksInBank_iff_turnsFrom :
    ChunksInBank image loadAddr ↔
      ∀ turn ∈ turnsFrom image.length loadAddr image.length, turn.InBank := by
  constructor
  · intro h turn hturn
    obtain ⟨hexec, hok⟩ :=
      exec_chip read_logAnswer (invFirmwareLoad image loadAddr) (deviceAt 255) ⟨255, 0, []⟩
    obtain ⟨turns, hlogged, hall⟩ := h _ _ _ _ _ _ _ _ hexec
    exact hall turn ((mem_firmwareLoadTurns rfl hlogged hok).subset hturn)
  · intro h σ env pdev pdev' s s' tr retval hexec
    rw [invFirmwareLoad_eq_turns] at hexec
    obtain ⟨⟨retval', turns⟩, rfl, hlogged⟩ := Prog.exec_map.mp hexec
    refine ⟨turns, hlogged, fun turn hturn => h turn ?_⟩
    exact (ends_firmwareLoadTurns pdev).exec hlogged turn hturn

end

/-! ## The load -/

/-- Sixteen bytes from address `0x00fc` on: the first chunk has the length of the twelve bytes that
belong into the next bank. -/
theorem first_chunk_crosses_bank :
    ¬ ∀ (image : List Byte) (loadAddr : BitVec 16), loadAddr.toNat + image.length ≤ 65536 →
      ChunksInBank image loadAddr := by
  intro h
  have hall := chunksInBank_iff_turnsFrom.mp (h (List.replicate 16 0) 0x00fc (by decide))
  have hfirst := (hall ⟨0x00fc, 16, 12⟩ (by decide)).bank 4 (by decide)
  exact absurd hfirst (by decide)

/-- Every chunk of every run is in one bank exactly when the load address and the size let the cut
chunks end with the bank. -/
theorem firmware_chunks_in_bank_iff (image : List Byte) (loadAddr : BitVec 16)
    (hend : loadAddr.toNat + image.length ≤ 65536) :
    ChunksInBank image loadAddr ↔ StaysInBanks loadAddr.toNat image.length :=
  chunksInBank_iff_turnsFrom.trans (turnsFrom_inBank_iff (Nat.le_refl _) hend)

/-- Half a chunk before the end of the bank: the next one starts with the next bank. -/
theorem firmware_chunks_in_bank_iff_half_chunk :
    (ChunksInBank (List.replicate 24 0) 0x00f8 ↔ StaysInBanks 0xf8 24) ∧ StaysInBanks 0xf8 24 :=
  ⟨firmware_chunks_in_bank_iff (List.replicate 24 0) 0x00f8 (by decide),
    Or.inr (Or.inr ⟨1, by decide, by decide, by decide, by decide⟩)⟩

end SimuSound.Imu
