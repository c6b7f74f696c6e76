import SimuSound.Imu.MemoryPort

/-!
# MemoryRange — ranges of DMP memory that cross a bank

`write_mems` and `read_mems` select the bank of the first byte and then only move the start address.
The bytes of a range that goes beyond the bank are wrapped into its beginning.
-/

namespace SimuSound.Imu

open Reasoning

/-- 256 banks of 256 bytes. -/
abbrev DmpMemory := Byte → Byte → Byte

/-- A byte by its absolute address. -/
def DmpMemory.at (m : DmpMemory) (a : BitVec 16) : Byte := m (hiByte a) (loByte a)

/-- A bank after consecutive bytes have been written from `offset` on; the offset wraps. -/
def storeFrom (row : Byte → Byte) (offset : Byte) : List Byte → Byte → Byte
  | [] => row
  | b :: rest => storeFrom (Function.update row offset b) (offset + 1) rest

theorem ofNat_succ (n : Nat) : BitVec.ofNat 8 (n + 1) = 1 + BitVec.ofNat 8 n := by
  rw [Nat.add_comm, BitVec.ofNat_add]
  rfl

theorem storeFrom_append (row : Byte → Byte) (offset : Byte) (xs ys : List Byte) :
    storeFrom row offset (xs ++ ys) =
      storeFrom (storeFrom row offset xs) (offset + BitVec.ofNat 8 xs.length) ys := by
  induction xs generalizing row offset with
  | nil => simp [storeFrom]
  | cons x xs ih =>
    rw [List.cons_append, storeFrom, ih, storeFrom, List.length_cons, ofNat_succ, BitVec.add_assoc]

/-- Bursts on the memory itself. -/
def memoryBacking : Backing DmpMemory where
  write bank offset bytes m := Function.update m bank (storeFrom (m bank) offset bytes)
  read bank offset bytes m m' :=
    m' = m ∧ ∀ i (hi : i < bytes.length), bytes[i] = m bank (offset + BitVec.ofNat 8 i)
  write_nil _ _ _ := Function.update_eq_self _ _
  write_append bank offset xs ys m := by
    rw [Function.update_self, Function.update_idem, storeFrom_append]
  read_nil _ _ _ := ⟨rfl, fun i hi => absurd hi (Nat.not_lt_zero i)⟩
  read_append bank offset xs ys m m₁ m₂ := by
    rintro ⟨rfl, hxs⟩ ⟨rfl, hys⟩
    refine ⟨rfl, fun i hi => ?_⟩
    by_cases hlt : i < xs.length
    · rw [List.getElem_append_left hlt]
      exact hxs i hlt
    · have hsum : i = xs.length + (i - xs.length) := by omega
      have hlt' : i - xs.length < ys.length := by
        rw [List.length_append] at hi
        omega
      rw [List.getElem_append_right (Nat.not_lt.mp hlt), hys _ hlt', BitVec.add_assoc,
        ← BitVec.ofNat_add, ← hsum]

/-! ## One bank -/

theorem storeFrom_of_forall_ne {row : Byte → Byte} {offset o : Byte} {bytes : List Byte}
    (h : ∀ i < bytes.length, o ≠ offset + BitVec.ofNat 8 i) :
    storeFrom row offset bytes o = row o := by
  induction bytes generalizing row offset with
  | nil => rfl
  | cons b bytes ih =>
    have hne : o ≠ offset := by
      have hfirst := h 0 (Nat.succ_pos _)
      rwa [show offset + BitVec.ofNat 8 0 = offset from BitVec.add_zero offset] at hfirst
    rw [storeFrom, ih, Function.update_of_ne hne]
    intro i hi
    have hlater := h (i + 1) (Nat.succ_lt_succ hi)
    rwa [ofNat_succ, ← BitVec.add_assoc] at hlater

/-- A byte that was written holds one of the bytes written there. -/
theorem storeFrom_of_exists {row : Byte → Byte} {offset o : Byte} {bytes : List Byte}
    (h : ∃ i < bytes.length, o = offset + BitVec.ofNat 8 i) :
    ∃ i, ∃ hi : i < bytes.length, o = offset + BitVec.ofNat 8 i ∧
      storeFrom row offset bytes o = bytes[i] := by
  induction bytes generalizing row offset with
  | nil =>
    obtain ⟨i, hi, -⟩ := h
    exact absurd hi (Nat.not_lt_zero i)
  | cons b bytes ih =>
    by_cases hlater : ∃ i < bytes.length, o = offset + 1 + BitVec.ofNat 8 i
    · obtain ⟨i, hi, ho, hval⟩ := @ih (Function.update row offset b) (offset + 1) hlater
      refine ⟨i + 1, Nat.succ_lt_succ hi, ?_, ?_⟩
      · rw [ho, ofNat_succ, BitVec.add_assoc]
      · rw [storeFrom, hval, List.getElem_cons_succ]
    · -- nothing after the first byte was written there
      obtain ⟨i, hi, ho⟩ := h
      obtain rfl : i = 0 := by
        by_contra hne
        obtain ⟨j, rfl⟩ := Nat.exists_eq_succ_of_ne_zero hne
        refine hlater ⟨j, Nat.lt_of_succ_lt_succ hi, ?_⟩
        rw [ho, Nat.succ_eq_add_one, ofNat_succ, BitVec.add_assoc]
      have hoff : o = offset := by
        rw [ho]
        exact BitVec.add_zero offset
      refine ⟨0, hi, ho, ?_⟩
      rw [storeFrom, storeFrom_of_forall_ne, hoff, Function.update_self, List.getElem_cons_zero]
      exact fun i hi hoi => hlater ⟨i, hi, hoi⟩

/-! ## Ranges -/

/-- `data` is stored at the addresses from `reg` on, and every other byte is what it was. -/
def Stored (reg : BitVec 16) (data : List Byte) (m m' : DmpMemory) : Prop :=
  (∀ i (hi : i < data.length), m'.at (reg + BitVec.ofNat 16 i) = data[i]) ∧
  ∀ a, (∀ i < data.length, a ≠ reg + BitVec.ofNat 16 i) → m'.at a = m.at a

/-- The bytes beyond the first bank are in memory already, those wrapped into the beginning of the
bank are there already, and bytes that fall on one another are equal. -/
structure WrapsHarmlessly (reg : BitVec 16) (data : List Byte) (m : DmpMemory) : Prop where
  beyond : ∀ i (hi : i < data.length), 256 ≤ reg.toNat % 256 + i →
    m.at (reg + BitVec.ofNat 16 i) = data[i]
  wrapped : ∀ i (hi : i < data.length), 256 ≤ reg.toNat % 256 + i →
    (reg.toNat % 256 + i) % 256 < reg.toNat % 256 →
    m (hiByte reg) (loByte (reg + BitVec.ofNat 16 i)) = data[i]
  periodic : ∀ i j (hi : i < data.length) (hj : j < data.length), i % 256 = j % 256 →
    data[i] = data[j]

/-- In particular, a range within one bank. -/
theorem wrapsHarmlessly_of_within {reg : BitVec 16} {data : List Byte}
    (hwithin : reg.toNat % 256 + data.length ≤ 256) (m : DmpMemory) :
    WrapsHarmlessly reg data m where
  beyond i hi hbeyond := by omega
  wrapped i hi hbeyond := by omega
  periodic i j hi hj hij := by
    obtain rfl : i = j := by omega
    rfl

section
variable {reg : BitVec 16} {data : List Byte} {i j : Nat}

theorem toNat_add_of_lt (hlen : reg.toNat + data.length ≤ 65536) (hi : i < data.length) :
    (reg + BitVec.ofNat 16 i).toNat = reg.toNat + i := by
  rw [BitVec.toNat_add, BitVec.toNat_ofNat]
  omega

theorem hiByte_add_eq_iff (hlen : reg.toNat + data.length ≤ 65536) (hi : i < data.length) :
    hiByte (reg + BitVec.ofNat 16 i) = hiByte reg ↔ reg.toNat % 256 + i < 256 := by
  rw [← BitVec.toNat_inj, toNat_hiByte, toNat_hiByte, toNat_add_of_lt hlen hi]
  omega

theorem loByte_add_eq_iff :
    loByte reg + BitVec.ofNat 8 i = loByte reg + BitVec.ofNat 8 j ↔ i % 256 = j % 256 := by
  rw [BitVec.add_right_inj, ← BitVec.toNat_inj, BitVec.toNat_ofNat, BitVec.toNat_ofNat]

theorem hiByte_append (hi lo : Byte) : hiByte (hi ++ lo) = hi := by
  have hlo := lo.isLt
  apply BitVec.eq_of_toNat_eq
  rw [toNat_hiByte, BitVec.toNat_append, ← Nat.shiftLeft_add_eq_or_of_lt hlo, Nat.shiftLeft_eq]
  omega

theorem loByte_append (hi lo : Byte) : loByte (hi ++ lo) = lo := by
  have hlo := lo.isLt
  apply BitVec.eq_of_toNat_eq
  rw [toNat_loByte, BitVec.toNat_append, ← Nat.shiftLeft_add_eq_or_of_lt hlo, Nat.shiftLeft_eq]
  omega

theorem eq_of_bytes {a b : BitVec 16} (hhi : hiByte a = hiByte b) (hlo : loByte a = loByte b) :
    a = b := by
  rw [← BitVec.toNat_inj, toNat_hiByte, toNat_hiByte] at hhi
  rw [← BitVec.toNat_inj, toNat_loByte, toNat_loByte] at hlo
  apply BitVec.eq_of_toNat_eq
  omega

variable {m m' : DmpMemory}

/-- What the range reads back as, in the bank of its first byte. -/
def ReadsBack (reg : BitVec 16) (data : List Byte) (m : DmpMemory) : Prop :=
  ∀ i (hi : i < data.length), data[i] = m (hiByte reg) (loByte reg + BitVec.ofNat 8 i)

/-- Bytes outside the first bank are never written. -/
theorem at_write_of_ne {a : BitVec 16} (h : hiByte a ≠ hiByte reg) :
    (memoryBacking.write (hiByte reg) (loByte reg) data m).at a = m.at a :=
  congrFun (Function.update_of_ne h _ m) (loByte a)

theorem write_bank (o : Byte) :
    memoryBacking.write (hiByte reg) (loByte reg) data m (hiByte reg) o =
      storeFrom (m (hiByte reg)) (loByte reg) data o :=
  congrFun (Function.update_self _ _ _) o

/-- A byte of the first bank by its address. -/
theorem at_write_of_eq {a : BitVec 16} (h : hiByte a = hiByte reg) :
    (memoryBacking.write (hiByte reg) (loByte reg) data m).at a =
      storeFrom (m (hiByte reg)) (loByte reg) data (loByte a) := by
  unfold DmpMemory.at
  rw [h, write_bank]

theorem readsBack_of_periodic
    (hperiodic : ∀ i j (hi : i < data.length) (hj : j < data.length), i % 256 = j % 256 →
      data[i] = data[j]) :
    ReadsBack reg data (memoryBacking.write (hiByte reg) (loByte reg) data m) := by
  intro i hi
  obtain ⟨j, hj, hij, hval⟩ :=
    @storeFrom_of_exists (m (hiByte reg)) (loByte reg) _ data ⟨i, hi, rfl⟩
  rw [write_bank, hval]
  exact hperiodic i j hi hj (loByte_add_eq_iff.mp hij)

/-- An address before the range, in its bank, that the range wraps to. -/
theorem outside_of_wrapped (hlen : reg.toNat + data.length ≤ 65536) {a : BitVec 16}
    (ha : hiByte a = hiByte reg)
    (hlo : loByte a = loByte reg + BitVec.ofNat 8 i)
    (hwrapped : (reg.toNat % 256 + i) % 256 < reg.toNat % 256) :
    ∀ j < data.length, a ≠ reg + BitVec.ofNat 16 j := by
  rintro j hj rfl
  have hlt := (hiByte_add_eq_iff hlen hj).mp ha
  have hij := loByte_add_eq_iff.mp ((loByte_add reg j).symm.trans hlo)
  omega

/-- An address outside the range that the range is wrapped to lies before it in its bank. -/
theorem wrapped_of_outside (hlen : reg.toNat + data.length ≤ 65536) {a : BitVec 16}
    (ha : hiByte a = hiByte reg) (hi : i < data.length)
    (hlo : loByte a = loByte reg + BitVec.ofNat 8 i)
    (houtside : ∀ j < data.length, a ≠ reg + BitVec.ofNat 16 j) :
    256 ≤ reg.toNat % 256 + i ∧ (reg.toNat % 256 + i) % 256 < reg.toNat % 256 := by
  -- a byte of the bank with the right offset is in the range
  have hin : ∀ j < data.length, reg.toNat % 256 + j < 256 → i % 256 ≠ j % 256 := by
    intro j hj hlt hij
    refine houtside j hj (eq_of_bytes (ha.trans ((hiByte_add_eq_iff hlen hj).mpr hlt).symm) ?_)
    rw [hlo, loByte_add]
    exact loByte_add_eq_iff.mpr hij
  constructor
  · by_contra hlt
    exact hin i hi (Nat.not_le.mp hlt) rfl
  · by_contra hge
    have hi256 : 256 ≤ reg.toNat % 256 + i := by
      by_contra hlt
      exact hin i hi (Nat.not_le.mp hlt) rfl
    refine hin ((reg.toNat % 256 + i) % 256 - reg.toNat % 256) ?_ ?_ ?_ <;> omega

/-- What was stored and reads back wrapped harmlessly. -/
theorem wrapsHarmlessly_of_stored (hlen : reg.toNat + data.length ≤ 65536)
    (hstored : Stored reg data m (memoryBacking.write (hiByte reg) (loByte reg) data m))
    (hback : ReadsBack reg data (memoryBacking.write (hiByte reg) (loByte reg) data m)) :
    WrapsHarmlessly reg data m where
  beyond i hi hbeyond := by
    have hbank : hiByte (reg + BitVec.ofNat 16 i) ≠ hiByte reg :=
      fun h => absurd ((hiByte_add_eq_iff hlen hi).mp h) (Nat.not_lt.mpr hbeyond)
    rw [← hstored.1 i hi, at_write_of_ne hbank]
  wrapped i hi hbeyond hwrapped := by
    -- the address in the first bank that byte `i` was wrapped to
    let a : BitVec 16 := hiByte reg ++ loByte (reg + BitVec.ofNat 16 i)
    have hhi : hiByte a = hiByte reg := hiByte_append _ _
    have hlo : loByte a = loByte (reg + BitVec.ofNat 16 i) := loByte_append _ _
    have hsame := hstored.2 a
      (outside_of_wrapped hlen hhi (hlo.trans (loByte_add reg i)) hwrapped)
    have hval := hback i hi
    rw [write_bank] at hval
    rw [at_write_of_eq hhi, hlo, loByte_add, ← hval] at hsame
    rw [hsame]
    unfold DmpMemory.at
    rw [hhi, hlo]
  periodic i j hi hj hij := by rw [hback i hi, hback j hj, loByte_add_eq_iff.mpr hij]

theorem stored_of_wrapsHarmlessly (hlen : reg.toNat + data.length ≤ 65536)
    (h : WrapsHarmlessly reg data m) :
    Stored reg data m (memoryBacking.write (hiByte reg) (loByte reg) data m) := by
  have hback : ReadsBack reg data (memoryBacking.write (hiByte reg) (loByte reg) data m) :=
    readsBack_of_periodic h.periodic
  refine ⟨fun i hi => ?_, fun a houtside => ?_⟩
  · by_cases hwithin : reg.toNat % 256 + i < 256
    · have hbank := (hiByte_add_eq_iff hlen hi).mpr hwithin
      rw [at_write_of_eq hbank, loByte_add, ← write_bank]
      exact (hback i hi).symm
    · have hbank : hiByte (reg + BitVec.ofNat 16 i) ≠ hiByte reg :=
        fun h => hwithin ((hiByte_add_eq_iff hlen hi).mp h)
      rw [at_write_of_ne hbank]
      exact h.beyond i hi (Nat.not_lt.mp hwithin)
  · by_cases hbank : hiByte a = hiByte reg
    · rw [at_write_of_eq hbank]
      by_cases hwritten : ∃ i < data.length, loByte a = loByte reg + BitVec.ofNat 8 i
      · obtain ⟨i, hi, hlo, hval⟩ := @storeFrom_of_exists (m (hiByte reg)) _ _ _ hwritten
        obtain ⟨hbeyond, hwrapped⟩ := wrapped_of_outside hlen hbank hi hlo houtside
        rw [hval, ← h.wrapped i hi hbeyond hwrapped, loByte_add, ← hlo, ← hbank]
        rfl
      · rw [storeFrom_of_forall_ne fun i hi hlo => hwritten ⟨i, hi, hlo⟩]
        unfold DmpMemory.at
        rw [hbank]
    · exact at_write_of_ne hbank

/-- Writing stores the range and it reads back, exactly when it wraps harmlessly. -/
theorem stored_iff (hlen : reg.toNat + data.length ≤ 65536) :
    (Stored reg data m (memoryBacking.write (hiByte reg) (loByte reg) data m) ∧
      ReadsBack reg data (memoryBacking.write (hiByte reg) (loByte reg) data m)) ↔
      WrapsHarmlessly reg data m :=
  ⟨fun h => wrapsHarmlessly_of_stored hlen h.1 h.2,
    fun h => ⟨stored_of_wrapsHarmlessly hlen h, readsBack_of_periodic h.periodic⟩⟩

end

/-! ## Writing a range and reading it -/

/-- The bytes of the memory answer the reads. -/
def memoryAnswer (bank offset : Byte) (n : Nat) (m : DmpMemory) : (Fin n → Byte) × DmpMemory :=
  (fun i => m bank (offset + BitVec.ofNat 8 i), m)

theorem read_memoryAnswer (bank offset : Byte) (n : Nat) (m : DmpMemory) :
    memoryBacking.read bank offset (List.ofFn (memoryAnswer bank offset n m).1) m
      (memoryAnswer bank offset n m).2 := by
  refine ⟨rfl, fun i hi => ?_⟩
  rw [List.getElem_ofFn]
  rfl

/-- A device whose DMP is available and not loaded, with `bank` remembered. -/
def deviceAt (bank : Byte) : Device := ⟨true, false, bank, 0, 0, 0, 0, 0, 0, 0, 0, 0, 0, 0⟩

/-- Two bytes from address `0x00ff` on: the second belongs into the next bank. -/
theorem writeMems_crosses_bank :
    ¬ ∀ (reg : BitVec 16) (data dest : List Byte) (pdev pdev₁ pdev₂ : Device)
      (s s₁ s₂ : Port DmpMemory) (t₁ t₂ : BusTrace (Port DmpMemory)) (retval : Status)
      (r : Read (Option (List Byte))),
      reg.toNat + data.length ≤ 65536 → dest.length = data.length → pdev.lastMemsBank = s.bank →
      Prog.Exec memoryBacking.device ((writeMems reg (some data)).run pdev) s t₁
        (retval, pdev₁) s₁ → AllOk t₁ →
      Prog.Exec memoryBacking.device ((readMems reg (some dest)).run pdev₁) s₁ t₂
        (r, pdev₂) s₂ → AllOk t₂ →
      Stored reg data s.mem s₁.mem ∧ r.val = some data := by
  intro h
  let s : Port DmpMemory := ⟨0, 0, fun _ _ => 0⟩
  let chip := memoryBacking.chip memoryAnswer
  let w := Prog.run chip ((writeMems 0x00ff (some [1, 2])).run (deviceAt 0)) s
  obtain ⟨hwrite, hok₁⟩ :=
    exec_chip read_memoryAnswer (writeMems 0x00ff (some [1, 2])) (deviceAt 0) s
  obtain ⟨hread, hok₂⟩ := exec_chip read_memoryAnswer (readMems 0x00ff (some [0, 0])) w.1.2 w.2
  have hstored := (h 0x00ff [1, 2] [0, 0] (deviceAt 0) w.1.2 _ s w.2 _ _ _ _ _ (by decide) rfl rfl
    hwrite hok₁ hread hok₂).1
  have hsecond := hstored.1 1 (by decide)
  exact absurd hsecond (by decide)

/-- Without failures and with the right bank remembered, the range is stored and reads back exactly
when it stays within its bank or what wraps around the bank is there already. -/
theorem write_read_mems_iff (reg : BitVec 16) (data dest : List Byte)
    (hlen : reg.toNat + data.length ≤ 65536) (hdest : dest.length = data.length)
    (pdev pdev₁ pdev₂ : Device) (s s₁ s₂ : Port DmpMemory) (t₁ t₂ : BusTrace (Port DmpMemory))
    (retval : Status) (r : Read (Option (List Byte))) (hsync : pdev.lastMemsBank = s.bank)
    (hwrite : Prog.Exec memoryBacking.device ((writeMems reg (some data)).run pdev) s t₁
      (retval, pdev₁) s₁) (hok₁ : AllOk t₁)
    (hread : Prog.Exec memoryBacking.device ((readMems reg (some dest)).run pdev₁) s₁ t₂
      (r, pdev₂) s₂) (hok₂ : AllOk t₂) :
    Stored reg data s.mem s₁.mem ∧ r.val = some data ↔ WrapsHarmlessly reg data s.mem := by
  have hright : RememberedRight pdev s reg := fun hbank => by rw [← hsync, hbank]
  obtain ⟨-, -, hbank, hmem⟩ := writeMems_good hright hwrite hok₁
  obtain ⟨bytes, rfl, hbytes, -, -, -, hvalues⟩ := readMems_good (fun _ => hbank) hread hok₂
  rw [← stored_iff hlen, hmem]
  refine and_congr_right fun _ => ?_
  rw [hmem] at hvalues
  rw [hdest] at hbytes
  constructor
  · rintro ⟨rfl⟩
    exact hvalues
  · intro hback
    refine congrArg some (List.ext_getElem hbytes fun i hi hi' => ?_)
    rw [hvalues i hi, hback i hi']

/-- Twenty bytes that end at the last byte of bank 1. -/
theorem write_read_mems_iff_within :
    let s : Port DmpMemory := ⟨0, 0, fun _ _ => 0⟩
    let data : List Byte := List.replicate 20 7
    let chip := memoryBacking.chip memoryAnswer
    let w := Prog.run chip ((writeMems 0x01ec (some data)).run (deviceAt 0)) s
    let r := Prog.run chip ((readMems 0x01ec (some data)).run w.1.2) w.2
    (Stored 0x01ec data s.mem w.2.mem ∧ r.1.1.val = some data ↔
      WrapsHarmlessly 0x01ec data s.mem) ∧ WrapsHarmlessly 0x01ec data s.mem := by
  intro s data chip w r
  obtain ⟨hwrite, hok₁⟩ := exec_chip read_memoryAnswer (writeMems 0x01ec (some data)) (deviceAt 0) s
  obtain ⟨hread, hok₂⟩ := exec_chip read_memoryAnswer (readMems 0x01ec (some data)) w.1.2 w.2
  exact ⟨write_read_mems_iff 0x01ec data data (by decide) rfl (deviceAt 0) _ _ s _ _ _ _ _ _ rfl
    hwrite hok₁ hread hok₂, wrapsHarmlessly_of_within (by decide) s.mem⟩

end SimuSound.Imu
