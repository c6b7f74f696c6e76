import SimuSound.Imu.MemoryPort

/-!
# FirmwareImage — what the firmware load writes and reads back

The load cuts the image into chunks of up to 16 bytes, twice: to write it and to verify it.  From an
address that is a multiple of 16 no chunk leaves its bank, and both passes cover the image.
-/

namespace SimuSound.Imu

open Reasoning

/-! ## Chunks -/

theorem toNat_bankOffset (memaddr : BitVec 16) :
    (memaddr &&& 0xff).toNat = memaddr.toNat % 256 := by
  rw [BitVec.toNat_and, show (0xff : BitVec 16).toNat = 2 ^ 8 - 1 from rfl,
    Nat.and_two_pow_sub_one_eq_mod]

section
variable {max size : Nat} {memaddr : BitVec 16}

theorem chunkSize_pos (hmax : 0 < max) (hsize : 0 < size) : 0 < chunkSize max size memaddr := by
  unfold chunkSize
  simp only
  split <;> split <;> omega

theorem chunkSize_le :
    chunkSize max size memaddr ≤ size ∧ chunkSize max size memaddr ≤ max := by
  have hoffset := toNat_bankOffset memaddr
  unfold chunkSize
  simp only
  split <;> split <;> omega

/-- Nothing is cut off a chunk that starts at a multiple of its length. -/
theorem chunkSize_aligned (halign : memaddr.toNat % 16 = 0) :
    chunkSize 16 size memaddr = min size 16 := by
  have hoffset := toNat_bankOffset memaddr
  unfold chunkSize
  simp only
  split <;> split <;> omega

end

/-- Every turn of the loops takes at least one byte off the image. -/
theorem length_drop_chunk {b : Byte} {data : List Byte} {fuel : Nat} (memaddr : BitVec 16)
    (hfuel : (b :: data).length ≤ fuel + 1) :
    ((b :: data).drop (chunkSize 16 (b :: data).length memaddr)).length ≤ fuel :=
  length_drop_burst (chunkSize_pos (by decide) (Nat.succ_pos _)) hfuel

/-! ## The loops, a turn at a time -/

theorem firmwareWriteLoop_cons (fuel : Nat) (memaddr : BitVec 16) (b : Byte) (data : List Byte) :
    firmwareWriteLoop (fuel + 1) memaddr (b :: data) =
      let n := chunkSize 16 (b :: data).length memaddr
      writeMems memaddr (some ((b :: data).take n)) >>= fun result =>
        if result ≠ Status.ok then pure result
        else firmwareWriteLoop fuel (memaddr + BitVec.ofNat 16 n) ((b :: data).drop n) := rfl

theorem firmwareVerifyLoop_cons (fuel : Nat) (memaddr : BitVec 16) (b : Byte)
    (data dataCmp : List Byte) (flag : Bool) :
    firmwareVerifyLoop (fuel + 1) memaddr (b :: data) dataCmp flag =
      let n := chunkSize 16 (b :: data).length memaddr
      readMems memaddr (some (dataCmp.take n)) >>= fun r =>
        let dataCmp := r.val.getD [] ++ dataCmp.drop n
        let flag := flag || r.retval ≠ Status.ok
        if dataCmp.take n ≠ (b :: data).take n then pure ⟨Status.dmpVerifyFail, flag⟩
        else firmwareVerifyLoop fuel (memaddr + BitVec.ofNat 16 n) ((b :: data).drop n) dataCmp
          flag := rfl

/-- However many turns are allowed, none is taken after the image has been written. -/
theorem firmwareWriteLoop_fuel {fuel fuel' : Nat} {memaddr : BitVec 16} {data : List Byte}
    (hfuel : data.length ≤ fuel) (hfuel' : data.length ≤ fuel') :
    firmwareWriteLoop fuel memaddr data = firmwareWriteLoop fuel' memaddr data := by
  induction fuel generalizing fuel' memaddr data with
  | zero =>
    obtain rfl : data = [] := List.length_eq_zero_iff.mp (Nat.le_zero.mp hfuel)
    cases fuel' <;> rfl
  | succ fuel ih =>
    cases data with
    | nil => cases fuel' <;> rfl
    | cons b data =>
      cases fuel' with
      | zero => exact absurd hfuel' (Nat.not_succ_le_zero _)
      | succ fuel' =>
        rw [firmwareWriteLoop_cons, firmwareWriteLoop_cons]
        refine bind_congr fun result => ?_
        rw [ih (length_drop_chunk _ hfuel) (length_drop_chunk _ hfuel')]

theorem firmwareVerifyLoop_fuel {fuel fuel' : Nat} {memaddr : BitVec 16}
    {data dataCmp : List Byte} {flag : Bool}
    (hfuel : data.length ≤ fuel) (hfuel' : data.length ≤ fuel') :
    firmwareVerifyLoop fuel memaddr data dataCmp flag =
      firmwareVerifyLoop fuel' memaddr data dataCmp flag := by
  induction fuel generalizing fuel' memaddr data dataCmp flag with
  | zero =>
    obtain rfl : data = [] := List.length_eq_zero_iff.mp (Nat.le_zero.mp hfuel)
    cases fuel' <;> rfl
  | succ fuel ih =>
    cases data with
    | nil => cases fuel' <;> rfl
    | cons b data =>
      cases fuel' with
      | zero => exact absurd hfuel' (Nat.not_succ_le_zero _)
      | succ fuel' =>
        rw [firmwareVerifyLoop_cons, firmwareVerifyLoop_cons]
        refine bind_congr fun r => ?_
        simp only
        rw [ih (length_drop_chunk _ hfuel) (length_drop_chunk _ hfuel')]

/-! ## The record of the bytes moved -/

/-- A byte that went through the port. -/
inductive MemAccess
  | wrote (bank offset b : Byte)
  | got (bank offset b : Byte)
  deriving DecidableEq

/-- The bytes of a burst with their offsets in the bank. -/
def burstLog (access : Byte → Byte → Byte → MemAccess) (bank offset : Byte) (bytes : List Byte) :
    List MemAccess :=
  bytes.mapIdx fun i b => access bank (offset + BitVec.ofNat 8 i) b

/-- The bytes of a range with the bank and the offset of their absolute addresses. -/
def rangeLog (access : Byte → Byte → Byte → MemAccess) (reg : BitVec 16) (bytes : List Byte) :
    List MemAccess :=
  bytes.mapIdx fun i b =>
    access (hiByte (reg + BitVec.ofNat 16 i)) (loByte (reg + BitVec.ofNat 16 i)) b

theorem burstLog_append (access : Byte → Byte → Byte → MemAccess) (bank offset : Byte)
    (xs ys : List Byte) :
    burstLog access bank offset (xs ++ ys) =
      burstLog access bank offset xs ++
        burstLog access bank (offset + BitVec.ofNat 8 xs.length) ys := by
  unfold burstLog
  rw [List.mapIdx_append]
  simp only [BitVec.add_assoc, ← BitVec.ofNat_add, Nat.add_comm]

theorem rangeLog_append (access : Byte → Byte → Byte → MemAccess) (reg : BitVec 16)
    (xs ys : List Byte) :
    rangeLog access reg (xs ++ ys) =
      rangeLog access reg xs ++ rangeLog access (reg + BitVec.ofNat 16 xs.length) ys := by
  unfold rangeLog
  rw [List.mapIdx_append]
  simp only [BitVec.add_assoc, ← BitVec.ofNat_add, Nat.add_comm]

/-- A burst that stays in its bank is a rangeLog. -/
theorem burstLog_eq_rangeLog (access : Byte → Byte → Byte → MemAccess) {reg : BitVec 16}
    {bytes : List Byte} (hwithin : reg.toNat % 256 + bytes.length ≤ 256) :
    burstLog access (hiByte reg) (loByte reg) bytes = rangeLog access reg bytes := by
  unfold burstLog rangeLog
  rw [List.mapIdx_eq_mapIdx_iff]
  intro i hi
  have hlt := reg.isLt
  have hhi : hiByte (reg + BitVec.ofNat 16 i) = hiByte reg := by
    rw [← BitVec.toNat_inj, toNat_hiByte, toNat_hiByte, BitVec.toNat_add, BitVec.toNat_ofNat]
    omega
  rw [hhi, loByte_add]

/-- Memory that may answer a read with anything: only what went through the port is kept. -/
def logBacking : Backing (List MemAccess) where
  write bank offset bytes log := log ++ burstLog .wrote bank offset bytes
  read bank offset bytes log log' := log' = log ++ burstLog .got bank offset bytes
  write_nil _ _ log := List.append_nil log
  write_append bank offset xs ys log := by rw [burstLog_append, List.append_assoc]
  read_nil _ _ log := (List.append_nil log).symm
  read_append bank offset xs ys log log₁ log₂ := by
    rintro rfl rfl
    rw [burstLog_append, List.append_assoc]

/-! ## Both passes -/

/-- No bank is remembered, or the right one. -/
def CacheAgrees {μ : Type} (pdev : Device) (s : Port μ) : Prop :=
  pdev.lastMemsBank = 255 ∨ pdev.lastMemsBank = s.bank

/-- What a pass leaves of the structure: all but the remembered bank. -/
def SameButBank (pdev pdev' : Device) : Prop :=
  ∃ bank, pdev' = { pdev with lastMemsBank := bank }

theorem SameButBank.trans {pdev pdev₁ pdev₂ : Device} (h₁ : SameButBank pdev pdev₁)
    (h₂ : SameButBank pdev₁ pdev₂) : SameButBank pdev pdev₂ := by
  obtain ⟨bank₁, rfl⟩ := h₁
  obtain ⟨bank₂, rfl⟩ := h₂
  exact ⟨bank₂, rfl⟩

section
variable {s s' : Port (List MemAccess)} {tr : BusTrace (Port (List MemAccess))}
  {pdev pdev' : Device} {memaddr : BitVec 16}

/-- Below bank 255 the value for "no bank" is never mistaken for one. -/
theorem CacheAgrees.right (h : CacheAgrees pdev s) (hbound : memaddr.toNat < 0xff00) :
    RememberedRight pdev s memaddr := by
  intro hbank
  rcases h with h | h
  · rw [h, ← BitVec.toNat_inj, toNat_hiByte] at hbank
    have hlt : memaddr.toNat / 256 < 255 := by omega
    exact absurd hbank (Nat.ne_of_lt hlt)
  · rw [hbank, h]

/-- A chunk at a multiple of 16, and what remains of the image after it. -/
structure NextChunk (memaddr : BitVec 16) (data : List Byte) (n : Nat) : Prop where
  le : n ≤ 16
  length : (data.take n).length = n
  within : memaddr.toNat % 256 + n ≤ 256
  aligned : data.drop n = [] ∨ (memaddr + BitVec.ofNat 16 n).toNat % 16 = 0
  bound : (memaddr + BitVec.ofNat 16 n).toNat + (data.drop n).length ≤ 0xff00

theorem nextChunk {data : List Byte} (halign : memaddr.toNat % 16 = 0)
    (hbound : memaddr.toNat + data.length ≤ 0xff00) :
    NextChunk memaddr data (chunkSize 16 data.length memaddr) := by
  rw [chunkSize_aligned halign]
  have haddr : (memaddr + BitVec.ofNat 16 (min data.length 16)).toNat =
      memaddr.toNat + min data.length 16 := by
    rw [BitVec.toNat_add, BitVec.toNat_ofNat]
    omega
  refine ⟨?_, ?_, ?_, ?_, ?_⟩
  · omega
  · rw [List.length_take]
    omega
  · omega
  · -- only the last chunk can be shorter than 16 bytes
    by_cases hlast : data.length ≤ 16
    · left
      rw [Nat.min_eq_left hlast]
      exact List.drop_length
    · right
      omega
  · rw [haddr, List.length_drop]
    omega

/-- One chunk of the writing. -/
theorem writeChunk_good {chunk : List Byte} {retval : Status}
    (hright : RememberedRight pdev s memaddr)
    (hwithin : memaddr.toNat % 256 + chunk.length ≤ 256)
    (hwrite : Prog.Exec logBacking.device ((writeMems memaddr (some chunk)).run pdev) s tr
      (retval, pdev') s') (hok : AllOk tr) :
    retval = Status.ok ∧ SameButBank pdev pdev' ∧ CacheAgrees pdev' s' ∧
      s'.mem = s.mem ++ rangeLog .wrote memaddr chunk := by
  obtain ⟨rfl, rfl, hbank, hlog⟩ := writeMems_good hright hwrite hok
  refine ⟨rfl, ⟨_, rfl⟩, Or.inr hbank.symm, ?_⟩
  rw [← burstLog_eq_rangeLog .wrote hwithin]
  exact hlog

theorem firmwareWriteLoop_nil (fuel : Nat) (memaddr : BitVec 16) :
    firmwareWriteLoop fuel memaddr [] = pure Status.ok := by
  cases fuel <;> rfl

theorem firmwareWriteLoop_good {fuel : Nat} {data : List Byte} {retval : Status}
    (hfuel : data.length ≤ fuel) (halign : data = [] ∨ memaddr.toNat % 16 = 0)
    (hbound : memaddr.toNat + data.length ≤ 0xff00) (hcache : CacheAgrees pdev s)
    (hexec : Prog.Exec logBacking.device ((firmwareWriteLoop fuel memaddr data).run pdev) s tr
      (retval, pdev') s') (hok : AllOk tr) :
    retval = Status.ok ∧ SameButBank pdev pdev' ∧ CacheAgrees pdev' s' ∧
      s'.mem = s.mem ++ rangeLog .wrote memaddr data := by
  have hnil {fuel : Nat} {memaddr : BitVec 16} {pdev : Device} {s : Port (List MemAccess)}
      {tr : BusTrace (Port (List MemAccess))} (hcache : CacheAgrees pdev s)
      (hexec : Prog.Exec logBacking.device ((firmwareWriteLoop fuel memaddr []).run pdev) s tr
        (retval, pdev') s') :
      retval = Status.ok ∧ SameButBank pdev pdev' ∧ CacheAgrees pdev' s' ∧
        s'.mem = s.mem ++ rangeLog .wrote memaddr [] := by
    rw [firmwareWriteLoop_nil] at hexec
    obtain ⟨-, rfl, rfl, rfl⟩ := Prog.exec_pureM.mp hexec
    exact ⟨rfl, ⟨_, rfl⟩, hcache, (List.append_nil _).symm⟩
  induction fuel generalizing memaddr data pdev s tr with
  | zero =>
    obtain rfl : data = [] := List.length_eq_zero_iff.mp (Nat.le_zero.mp hfuel)
    exact hnil hcache hexec
  | succ fuel ih =>
    cases data with
    | nil => exact hnil hcache hexec
    | cons b data =>
      have halign : memaddr.toNat % 16 = 0 := halign.resolve_left (List.cons_ne_nil _ _)
      have hchunk := nextChunk halign hbound
      rw [firmwareWriteLoop_cons] at hexec
      obtain ⟨result, pdev₁, s₁, t₁, t₂, rfl, hwrite, hrest⟩ := exec_guardM.mp hexec
      obtain ⟨hok₁, hok₂⟩ := allOk_append t₁ t₂ |>.mp hok
      have hlt : memaddr.toNat < 0xff00 := by
        rw [List.length_cons] at hbound
        omega
      have hwithin := hchunk.within
      rw [← hchunk.length] at hwithin
      obtain ⟨rfl, hsame, hcache₁, hlog⟩ :=
        writeChunk_good (hcache.right hlt) hwithin hwrite hok₁
      rw [if_pos rfl] at hrest
      obtain ⟨hret, hsame', hcache', hlog'⟩ := ih (length_drop_chunk _ hfuel) hchunk.aligned
        hchunk.bound hcache₁ hrest hok₂
      have hsplit := rangeLog_append .wrote memaddr
        ((b :: data).take (chunkSize 16 (b :: data).length memaddr))
        ((b :: data).drop (chunkSize 16 (b :: data).length memaddr))
      rw [List.take_append_drop, hchunk.length] at hsplit
      refine ⟨hret, hsame.trans hsame', hcache', ?_⟩
      rw [hlog', hlog, hsplit, List.append_assoc]

/-- A byte that has been read is not that of the image. -/
def Disagrees (got data : List Byte) : Prop :=
  ∃ i, ∃ (hi : i < got.length) (hi' : i < data.length), got[i] ≠ data[i]

theorem disagrees_of_ne {got data : List Byte} (hlength : got.length ≤ data.length)
    (hne : got ≠ data.take got.length) : Disagrees got data := by
  refine Classical.by_contradiction fun hagree => hne ?_
  apply List.ext_getElem
  · rw [List.length_take_of_le hlength]
  · intro i hi hi'
    rw [List.getElem_take]
    exact Classical.by_contradiction fun h => hagree ⟨i, hi, Nat.lt_of_lt_of_le hi hlength, h⟩

theorem Disagrees.append_left {got data : List Byte} (h : Disagrees got data) (chunk : List Byte) :
    Disagrees (chunk ++ got) (chunk ++ data) := by
  obtain ⟨i, hi, hi', hne⟩ := h
  refine ⟨chunk.length + i, ?_, ?_, ?_⟩
  · rw [List.length_append]
    exact Nat.add_lt_add_left hi _
  · rw [List.length_append]
    exact Nat.add_lt_add_left hi' _
  · rw [List.getElem_append_right (Nat.le_add_right _ _),
      List.getElem_append_right (Nat.le_add_right _ _)]
    simpa only [Nat.add_sub_cancel_left] using hne

/-- What the verification has read, and its verdict: it is the whole image, or differs from it. -/
structure Verified (memaddr : BitVec 16) (data : List Byte) (flag : Bool) (pdev : Device)
    (s : Port (List MemAccess)) (r : Read Bool) (pdev' : Device) (s' : Port (List MemAccess))
    (got : List Byte) : Prop where
  flag : r.val = flag
  same : SameButBank pdev pdev'
  log : s'.mem = s.mem ++ rangeLog .got memaddr got
  length : got.length ≤ data.length
  ok : got = data → r.retval = Status.ok
  fail : got ≠ data → r.retval = Status.dmpVerifyFail ∧ Disagrees got data

theorem verified_nil {fuel : Nat} {dataCmp : List Byte} {flag : Bool} {r : Read Bool}
    (hexec : Prog.Exec logBacking.device ((firmwareVerifyLoop fuel memaddr [] dataCmp flag).run
      pdev) s tr (r, pdev') s') : Verified memaddr [] flag pdev s r pdev' s' [] := by
  have hend : firmwareVerifyLoop fuel memaddr [] dataCmp flag = pure ⟨Status.ok, flag⟩ := by
    cases fuel <;> rfl
  rw [hend] at hexec
  obtain ⟨-, rfl, rfl, rfl⟩ := Prog.exec_pureM.mp hexec
  exact ⟨rfl, ⟨_, rfl⟩, (List.append_nil _).symm, Nat.le_refl _, fun _ => rfl,
    fun h => absurd rfl h⟩

/-- A chunk that agrees with the image leaves the verdict to the rest. -/
theorem Verified.cons {data chunk got : List Byte} {flag : Bool} {r : Read Bool}
    {pdev₁ : Device} {s₁ : Port (List MemAccess)} (hsame : SameButBank pdev pdev₁)
    (hlog : s₁.mem = s.mem ++ rangeLog .got memaddr chunk)
    (hrest : Verified (memaddr + BitVec.ofNat 16 chunk.length) data flag pdev₁ s₁ r pdev' s' got) :
    Verified memaddr (chunk ++ data) flag pdev s r pdev' s' (chunk ++ got) where
  flag := hrest.flag
  same := hsame.trans hrest.same
  log := by rw [hrest.log, hlog, rangeLog_append, List.append_assoc]
  length := by
    rw [List.length_append, List.length_append]
    exact Nat.add_le_add_left hrest.length _
  ok h := hrest.ok (List.append_cancel_left h)
  fail h := by
    obtain ⟨hret, hdiffers⟩ := hrest.fail fun hgot => h (by rw [hgot])
    exact ⟨hret, hdiffers.append_left chunk⟩

/-- A chunk that does not ends the verification. -/
theorem verified_mismatch {data chunk : List Byte} {flag : Bool} {pdev₁ : Device}
    {s₁ : Port (List MemAccess)} (hsame : SameButBank pdev pdev₁)
    (hlog : s₁.mem = s.mem ++ rangeLog .got memaddr chunk) (hlength : chunk.length ≤ data.length)
    (hne : chunk ≠ data.take chunk.length) :
    Verified memaddr data flag pdev s ⟨Status.dmpVerifyFail, flag⟩ pdev₁ s₁ chunk where
  flag := rfl
  same := hsame
  log := hlog
  length := hlength
  ok h := absurd (by rw [h, List.take_length]) hne
  fail _ := ⟨rfl, disagrees_of_ne hlength hne⟩

/-- One chunk of the verification. -/
theorem readChunk_good {dest : List Byte} {r : Read (Option (List Byte))}
    (hright : RememberedRight pdev s memaddr)
    (hwithin : memaddr.toNat % 256 + dest.length ≤ 256)
    (hread : Prog.Exec logBacking.device ((readMems memaddr (some dest)).run pdev) s tr (r, pdev')
      s') (hok : AllOk tr) :
    ∃ chunk, r = ⟨Status.ok, some chunk⟩ ∧ chunk.length = dest.length ∧ SameButBank pdev pdev' ∧
      CacheAgrees pdev' s' ∧ s'.mem = s.mem ++ rangeLog .got memaddr chunk := by
  obtain ⟨chunk, rfl, hlength, rfl, hbank, hlog⟩ := readMems_good hright hread hok
  refine ⟨chunk, rfl, hlength, ⟨_, rfl⟩, Or.inr hbank.symm, ?_⟩
  rw [← hlength] at hwithin
  rw [← burstLog_eq_rangeLog .got hwithin]
  exact hlog

theorem firmwareVerifyLoop_good {fuel : Nat} {data dataCmp : List Byte} {flag : Bool}
    {r : Read Bool} (hfuel : data.length ≤ fuel) (halign : data = [] ∨ memaddr.toNat % 16 = 0)
    (hbound : memaddr.toNat + data.length ≤ 0xff00) (hbuffer : dataCmp.length = 16)
    (hcache : CacheAgrees pdev s)
    (hexec : Prog.Exec logBacking.device ((firmwareVerifyLoop fuel memaddr data dataCmp flag).run
      pdev) s tr (r, pdev') s') (hok : AllOk tr) :
    ∃ got, Verified memaddr data flag pdev s r pdev' s' got := by
  induction fuel generalizing memaddr data dataCmp flag pdev s tr with
  | zero =>
    obtain rfl : data = [] := List.length_eq_zero_iff.mp (Nat.le_zero.mp hfuel)
    exact ⟨[], verified_nil hexec⟩
  | succ fuel ih =>
    cases data with
    | nil => exact ⟨[], verified_nil hexec⟩
    | cons b data =>
      have halign : memaddr.toNat % 16 = 0 := halign.resolve_left (List.cons_ne_nil _ _)
      have hchunk := nextChunk halign hbound
      rw [firmwareVerifyLoop_cons] at hexec
      have hleft := length_drop_chunk memaddr hfuel
      generalize chunkSize 16 (b :: data).length memaddr = n at hchunk hexec hleft
      obtain ⟨⟨r₁, pdev₁⟩, s₁, t₁, t₂, rfl, hread, hrest⟩ := (Prog.exec_bind _ _ _ _ _ _ _).mp hexec
      obtain ⟨hok₁, hok₂⟩ := allOk_append t₁ t₂ |>.mp hok
      have hlt : memaddr.toNat < 0xff00 := by
        rw [List.length_cons] at hbound
        omega
      have hdest : (dataCmp.take n).length = n := by
        rw [List.length_take, hbuffer, Nat.min_eq_left hchunk.le]
      have hwithin := hchunk.within
      rw [← hdest] at hwithin
      obtain ⟨chunk, rfl, hlength, hsame, hcache₁, hlog⟩ :=
        readChunk_good (hcache.right hlt) hwithin hread hok₁
      rw [hdest] at hlength
      have htake : (chunk ++ dataCmp.drop n).take n = chunk := List.take_left' hlength
      have hbuffer' : (chunk ++ dataCmp.drop n).length = 16 := by
        rw [List.length_append, List.length_drop, hlength, hbuffer]
        exact Nat.add_sub_cancel' hchunk.le
      simp only [Option.getD_some, ne_eq, not_true_eq_false, decide_false, Bool.or_false, htake]
        at hrest
      by_cases heq : chunk = (b :: data).take n
      · rw [if_neg (not_not_intro heq)] at hrest
        obtain ⟨got, hgot⟩ := ih hleft hchunk.aligned hchunk.bound hbuffer' hcache₁ hrest hok₂
        rw [← hlength] at hgot
        have hall := hgot.cons hsame hlog
        rw [heq, hchunk.length, List.take_append_drop] at hall
        exact ⟨_, hall⟩
      · rw [if_pos heq] at hrest
        obtain ⟨rfl, rfl, rfl, rfl⟩ := Prog.exec_pureM.mp hrest
        have hn : n ≤ (b :: data).length := by
          rw [← hchunk.length]
          exact List.length_take_le' n _
        rw [← hlength] at hn heq
        exact ⟨chunk, verified_mismatch hsame hlog hn heq⟩

end

/-! ## The whole load -/

/-- `inv_icm20948_firmware_load` from where it has found the DMP available and not loaded. -/
def loadSteps (image : List Byte) (loadAddr : BitVec 16) (dataCmp : List Byte) : Drv Status := do
  let result ← sleep false
  if result ≠ Status.ok then return result
  let result ← lowPower false
  if result ≠ Status.ok then return result
  let result ← firmwareWriteLoop image.length loadAddr image
  if result ≠ Status.ok then return result
  let r ← firmwareVerifyLoop image.length loadAddr image dataCmp false
  if r.retval ≠ Status.ok then return r.retval
  let result ← lowPower true
  if result ≠ Status.ok then return result
  modify fun pdev => if r.val then pdev else { pdev with firmwareLoaded := true }
  return result

theorem run_invFirmwareLoad {pdev : Device} (image : List Byte) (loadAddr : BitVec 16)
    (havail : pdev.dmpFirmwareAvailable = true) (hnot : pdev.firmwareLoaded = false) :
    (invFirmwareLoad image loadAddr).run pdev =
      uninit 16 >>= fun garbage => (loadSteps image loadAddr (List.ofFn garbage)).run pdev := by
  unfold invFirmwareLoad
  rw [StateT.run_bind, StateT.run_monadLift, bind_assoc]
  refine bind_congr fun garbage => ?_
  simp only [pure_bind, StateT.run_bind, StateT.run_get, havail, hnot]
  rfl

/-- The loops of the load, and those of the transfers it makes, end before the turns they are
allowed run out. -/
structure LoopsEnd (image : List Byte) (loadAddr : BitVec 16) : Prop where
  write : ∀ fuel ≥ image.length,
    firmwareWriteLoop fuel loadAddr image = firmwareWriteLoop image.length loadAddr image
  verify : ∀ fuel ≥ image.length, ∀ dataCmp flag,
    firmwareVerifyLoop fuel loadAddr image dataCmp flag =
      firmwareVerifyLoop image.length loadAddr image dataCmp flag
  writeMems : ∀ reg (data : List Byte), ∀ fuel ≥ data.length,
    writeMemsLoop fuel reg data = writeMemsLoop data.length reg data
  readMems : ∀ reg (dest : List Byte), ∀ fuel ≥ dest.length,
    readMemsLoop fuel reg dest = readMemsLoop dest.length reg dest

theorem loopsEnd (image : List Byte) (loadAddr : BitVec 16) : LoopsEnd image loadAddr where
  write _ hfuel := firmwareWriteLoop_fuel hfuel (Nat.le_refl _)
  verify _ hfuel _ _ := firmwareVerifyLoop_fuel hfuel (Nat.le_refl _)
  writeMems _ _ _ hfuel := writeMemsLoop_fuel hfuel (Nat.le_refl _)
  readMems _ _ _ hfuel := readMemsLoop_fuel hfuel (Nat.le_refl _)

section
variable {s s' : Port (List MemAccess)} {tr : BusTrace (Port (List MemAccess))}
  {pdev pdev' : Device}

/-- A change of the power management register within the load. -/
theorem guard_power {α : Type} {assign : Byte → Byte} {fail : Status → α} {q : Status → Drv α}
    {a : α}
    (hexec : Prog.Exec logBacking.device ((liftM (updateReg 0 agb0RegPwrMgmt1 assign) >>=
      fun result => if result ≠ Status.ok then pure (fail result) else q result : Drv α).run pdev) s
      tr (a, pdev') s') (hok : AllOk tr) :
    ∃ t, Prog.Exec logBacking.device ((q Status.ok).run pdev) s t (a, pdev') s' ∧ AllOk t := by
  obtain ⟨result, pdev₁, s₁, t₁, t₂, rfl, hlift, hrest⟩ := exec_guardM.mp hexec
  obtain ⟨hok₁, hok₂⟩ := allOk_append t₁ t₂ |>.mp hok
  obtain ⟨hpower, rfl⟩ := (Prog.exec_lift _ _ _ _ _ _ _ _).mp hlift
  obtain rfl : result = Status.ok := (succeeds_updateReg _ _ _).exec hpower hok₁
  rw [if_pos rfl, exec_powerMgmt hpower] at hrest
  exact ⟨t₂, hrest, hok₂⟩

/-- The load writes the image once and then reads.  It has read back the whole image, is loaded and
returns `Ok`, or it has read a byte that is not that of the image, and says so. -/
theorem firmware_load_image (image : List Byte) (loadAddr : BitVec 16)
    (halign : loadAddr.toNat % 16 = 0) (hbound : loadAddr.toNat + image.length ≤ 0xff00)
    (pdev pdev' : Device) (havail : pdev.dmpFirmwareAvailable = true)
    (hnot : pdev.firmwareLoaded = false) (s s' : Port (List MemAccess))
    (hcache : CacheAgrees pdev s) (tr : BusTrace (Port (List MemAccess))) (retval : Status)
    (hexec : Prog.Exec logBacking.device ((invFirmwareLoad image loadAddr).run pdev) s tr
      (retval, pdev') s') (hok : AllOk tr) :
    LoopsEnd image loadAddr ∧
    ∃ got, s'.mem = s.mem ++ rangeLog .wrote loadAddr image ++ rangeLog .got loadAddr got ∧
      got.length ≤ image.length ∧
      (pdev'.firmwareLoaded = true ↔ got = image) ∧ (retval = Status.ok ↔ got = image) ∧
      (got ≠ image → retval = Status.dmpVerifyFail ∧ Disagrees got image) := by
  refine ⟨loopsEnd image loadAddr, ?_⟩
  rw [run_invFirmwareLoad image loadAddr havail hnot] at hexec
  obtain ⟨garbage, s₀, t₀, t, htr, huninit, hsteps⟩ := (Prog.exec_bind _ _ _ _ _ _ _).mp hexec
  rw [htr, allOk_append] at hok
  obtain ⟨hdev, -⟩ := (Prog.exec_perform _ _ _ _ _ _).mp huninit
  rw [device_offPort offPort_uninit hdev] at hsteps
  obtain ⟨t, hexec, hok⟩ := guard_power hsteps hok.2
  obtain ⟨t, hexec, hok⟩ := guard_power hexec hok
  -- the writing pass
  obtain ⟨result, pdev₁, s₁, t₁, t₂, rfl, hwrite, hexec⟩ := exec_guardM.mp hexec
  obtain ⟨hok₁, hok₂⟩ := allOk_append t₁ t₂ |>.mp hok
  obtain ⟨rfl, hsame₁, hcache₁, hlog₁⟩ := firmwareWriteLoop_good (Nat.le_refl _) (Or.inr halign)
    hbound hcache hwrite hok₁
  rw [if_pos rfl] at hexec
  -- the verifying pass
  obtain ⟨r, pdev₂, s₂, t₃, t₄, rfl, hverify, hexec⟩ := Prog.exec_bindM.mp hexec
  obtain ⟨hok₃, hok₄⟩ := allOk_append t₃ t₄ |>.mp hok₂
  obtain ⟨got, hgot⟩ := firmwareVerifyLoop_good (Nat.le_refl _) (Or.inr halign) hbound
    (List.length_ofFn) hcache₁ hverify hok₃
  obtain ⟨bank, hpdev₂⟩ := hsame₁.trans hgot.same
  have hlog : s₂.mem = s.mem ++ rangeLog .wrote loadAddr image ++ rangeLog .got loadAddr got := by
    rw [hgot.log, hlog₁]
  refine ⟨got, ?_⟩
  by_cases heq : got = image
  · simp only [hgot.ok heq, hgot.flag, ne_eq, not_true_eq_false, if_false] at hexec
    obtain ⟨t, hexec, -⟩ := guard_power hexec hok₄
    obtain ⟨-, rfl, rfl, rfl⟩ := Prog.exec_pureM.mp hexec
    exact ⟨hlog, hgot.length, iff_of_true rfl heq, iff_of_true rfl heq, fun h => absurd heq h⟩
  · obtain ⟨hfail, hdiffers⟩ := hgot.fail heq
    simp only [hfail] at hexec
    rw [if_pos (by decide)] at hexec
    obtain ⟨-, rfl, rfl, rfl⟩ := Prog.exec_pureM.mp hexec
    refine ⟨hlog, hgot.length, iff_of_false ?_ heq, iff_of_false (by decide) heq,
      fun _ => ⟨rfl, hdiffers⟩⟩
    rw [hpdev₂, hnot]
    decide

end

/-! ## A memory that works -/

/-- The byte written last to an address. -/
def lastWritten (log : List MemAccess) (bank offset : Byte) : Byte :=
  log.foldl (fun last access =>
    match access with
    | .wrote bank' offset' b => if bank' = bank ∧ offset' = offset then b else last
    | .got _ _ _ => last) 0

def logAnswer (bank offset : Byte) (n : Nat) (log : List MemAccess) :
    (Fin n → Byte) × List MemAccess :=
  let bytes := fun i : Fin n => lastWritten log bank (offset + BitVec.ofNat 8 i)
  (bytes, log ++ burstLog .got bank offset (List.ofFn bytes))

theorem read_logAnswer (bank offset : Byte) (n : Nat) (log : List MemAccess) :
    logBacking.read bank offset (List.ofFn (logAnswer bank offset n log).1) log
      (logAnswer bank offset n log).2 := rfl

/-- Three bytes at the address of the driver's own image. -/
theorem firmware_load_image_small :
    let image : List Byte := [1, 2, 3]
    let pdev : Device := ⟨true, false, 255, 0, 0, 0, 0, 0, 0, 0, 0, 0, 0, 0⟩
    let out := Prog.run (logBacking.chip logAnswer) ((invFirmwareLoad image dmpLoadStart).run pdev)
      ⟨0, 0, []⟩
    out.1.1 = Status.ok ∧ out.1.2.firmwareLoaded = true ∧
      out.2.mem = rangeLog .wrote dmpLoadStart image ++ rangeLog .got dmpLoadStart image := by
  intro image pdev
  have hchip := exec_chip read_logAnswer (invFirmwareLoad image dmpLoadStart) pdev ⟨0, 0, []⟩
  have hret : (Prog.run (logBacking.chip logAnswer) ((invFirmwareLoad image dmpLoadStart).run pdev)
    ⟨0, 0, []⟩).1.1 = Status.ok := by decide +kernel
  revert hchip hret
  generalize Prog.run (logBacking.chip logAnswer) ((invFirmwareLoad image dmpLoadStart).run pdev)
    ⟨0, 0, []⟩ = out
  rintro ⟨hexec, hok⟩ hret
  obtain ⟨-, got, hlog, -, hloaded, hiff, -⟩ := firmware_load_image image dmpLoadStart (by decide)
    (by decide) pdev out.1.2 rfl rfl ⟨0, 0, []⟩ out.2 (Or.inl rfl) _ out.1.1 hexec hok
  -- it has returned `Ok`, so it has read back the image
  have hgot : got = image := hiff.mp hret
  rw [hgot] at hlog
  exact ⟨hret, hloaded.mpr hgot, hlog⟩

end SimuSound.Imu
