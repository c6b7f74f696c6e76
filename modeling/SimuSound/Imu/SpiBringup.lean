import SimuSound.Imu.Bringup
import SimuSound.Imu.SpiLink

/-!
# SpiBringup — `begin` against a chip on the SPI bus

The chip of `startupDefault` with bytes between it and the driver.  `begin` opens the bus, and then
the whole start-up goes through the handle it was given.
-/

namespace SimuSound.Imu

open Reasoning

/-! ## A device behind seven address bits -/

section
variable {σ : Type} {disturbed : σ → σ → Prop}

/-- The chip whose transfers do what good accesses do to a device. -/
def onSpi (env : Env σ BusEvent BusEvent.Resp) : SpiChip σ := fun s t => match t with
  | .read a len => fun bytes s' => env s (.read (a.setWidth 8) len) ⟨Status.ok, bytes⟩ s'
  | .write a data => fun _ s' => env s (.write (a.setWidth 8) data) Status.ok s'

/-- The device does not look at the eighth address bit. -/
structure SevenBits (env : Env σ BusEvent BusEvent.Resp) : Prop where
  read : ∀ {s reg len r s'}, env s (.read ((addr reg).setWidth 8) len) r s' →
    env s (.read reg len) r s'
  write : ∀ {s reg data retval s'}, env s (.write ((addr reg).setWidth 8) data) retval s' →
    env s (.write reg data) retval s'

end

theorem addr_setWidth (a : BitVec 7) : addr (a.setWidth 8) = a := by
  unfold addr
  rw [BitVec.setWidth_setWidth_of_le _ (by decide), BitVec.setWidth_eq]

section
variable {regs regs' : RegFile} {reg other : Byte}

theorem isPort_congr (h : addr other = addr reg) : isPort other = isPort reg := by
  unfold isPort
  rw [h]

theorem access_read_congr (h : addr other = addr reg) {len : Nat} {r : Read (Fin len → Byte)} :
    Access regs (.read other len) r regs' ↔ Access regs (.read reg len) r regs' := by
  change (_ ∧ (isPort other = false → r.val = regs.load (addr other) len)) ↔ _
  rw [isPort_congr h, h]
  exact Iff.rfl

theorem access_write_congr (h : addr other = addr reg) {data : List Byte} {retval : Status} :
    Access regs (.write other data) retval regs' ↔ Access regs (.write reg data) retval regs' := by
  change regs' = (if isPort other then regs else regs.store (addr other) data) ↔ _
  rw [isPort_congr h, h]
  exact Iff.rfl

theorem requestsReset_congr (h : addr other = addr reg) {data : List Byte} :
    requestsReset (.write other data) ↔ requestsReset (.write reg data) := by
  change (isPort other = false ∧ ∃ i : Fin data.length,
    addr other + BitVec.ofNat 7 i = _ ∧ _) ↔ _
  rw [isPort_congr h, h]
  exact Iff.rfl

end

theorem sevenBits_chip (reset : RegFile) : SevenBits (chip reset) where
  read {regs reg len r regs'} h := by
    intro hgood
    exact (access_read_congr (addr_setWidth _)).mp (h hgood)
  write {regs reg data retval regs'} h := by
    intro hgood
    have hwrite := h hgood
    have hreset := @requestsReset_congr reg ((addr reg).setWidth 8) (addr_setWidth _) data
    by_cases hrequest : requestsReset (.write reg data)
    · rw [if_pos (hreset.mpr hrequest)] at hwrite
      rwa [if_pos hrequest]
    · rw [if_neg (mt hreset.mp hrequest)] at hwrite
      rw [if_neg hrequest]
      exact (access_write_congr (addr_setWidth _)).mp hwrite

/-! ## The accesses of the start-up -/

/-- An access that opens nothing, to a register that has no eighth address bit. -/
def Plain (e : BusEvent) : Prop :=
  (∀ csPin freq, e ≠ .spiOpen csPin freq) ∧ ∀ reg ∈ e.reg, reg.msb = false

theorem plain_read {reg : Byte} (hmsb : reg.msb = false) (len : Nat) : Plain (.read reg len) := by
  refine ⟨fun _ _ => BusEvent.noConfusion, fun other hmem => ?_⟩
  obtain rfl := Option.some.inj hmem
  exact hmsb

theorem plain_write {reg : Byte} (hmsb : reg.msb = false) (data : List Byte) :
    Plain (.write reg data) := by
  refine ⟨fun _ _ => BusEvent.noConfusion, fun other hmem => ?_⟩
  obtain rfl := Option.some.inj hmem
  exact hmsb

theorem plain_uninit (len : Nat) : Plain (.uninit len) :=
  ⟨fun _ _ => BusEvent.noConfusion, fun _ hmem => absurd hmem (by simp [BusEvent.reg])⟩

theorem plain_updateReg (bank : Byte) {reg : Byte} (hmsb : reg.msb = false)
    (assign : Byte → Byte) : (updateReg bank reg assign).Uses Plain :=
  uses_updateReg bank reg assign plain_uninit (plain_read hmsb 1) fun _ => plain_write hmsb _

theorem plain_updateRegOr (bank : Byte) {reg : Byte} (hmsb : reg.msb = false)
    (assign : Byte → Byte) : (updateRegOr bank reg assign).Uses Plain :=
  ⟨plain_uninit 1, fun _ => ⟨plain_read hmsb 1, fun _ => ⟨plain_write hmsb _, fun _ => trivial⟩⟩⟩

theorem plain_startup : startup.Uses Plain := by
  have hcheck : checkId.Uses Plain := by
    refine ⟨plain_read rfl 1, fun r => ?_⟩
    exact .ite trivial (.ite trivial trivial)
  have hsensors (accel gyro : Byte → Byte) (sensors : Sensors) :
      (forAccGyr sensors (updateRegOr 2 agb2RegAccelConfig accel)
        (updateRegOr 2 agb2RegGyroConfig1 gyro)).Uses Plain :=
    uses_forAccGyr sensors (plain_updateRegOr 2 rfl accel) (plain_updateRegOr 2 rfl gyro)
  have hmode : (setSampleMode 3 sampleModeContinuous).Uses Plain := plain_updateReg 0 rfl _
  refine uses_guard (plain_updateReg 0 rfl _) fun _ => uses_guard hcheck fun _ => ?_
  refine uses_guard (plain_updateReg 0 rfl _) fun _ => uses_guard (hsensors _ _ _) fun _ => ?_
  refine uses_guard hmode fun _ => uses_guard (hsensors _ _ _) fun _ => ?_
  exact uses_guard (hsensors _ _ _) fun _ => hsensors _ _ _

/-! ## The bus against the device -/

section
variable {σ : Type} {env : Env σ BusEvent BusEvent.Resp} {disturbed : σ → σ → Prop}

/-- Behind an open handle the driver sees the device, if a failed access of the device may do what a
failed transfer may do. -/
theorem bus_onSpi (hseven : SevenBits env)
    (huninit : ∀ s len (garbage : Fin len → Byte), env s (.uninit len) garbage s)
    (hfailed : ∀ s e r s', ¬ Good e r → disturbed s s' → env s e r s')
    {h : Int} (hopen : 0 ≤ h) {w w' : Int × σ} {e : BusEvent} {r : e.Resp} (he : Plain e)
    (hw : w.1 = h) (hbus : (onSpi env).bus disturbed w e r w') :
    env w.2 e r w'.2 ∧ w'.1 = h := by
  have hhandle : ¬ w.1 < 0 := by omega
  have herr : ¬ Status.err = Status.ok := by decide
  cases e with
  | read reg len =>
    obtain ⟨hsame, haccess⟩ := hbus
    rw [if_neg hhandle] at haccess
    refine ⟨?_, hsame.trans hw⟩
    rcases haccess.2 with ⟨hok, hread⟩ | ⟨rfl, hdist⟩
    · have hr : r = ⟨Status.ok, r.val⟩ := by rw [← hok]
      rw [hr]
      exact hseven.read hread
    · exact hfailed _ _ _ _ herr hdist
  | write reg data =>
    obtain ⟨hsame, haccess⟩ := hbus
    rw [if_neg hhandle] at haccess
    refine ⟨?_, hsame.trans hw⟩
    rcases haccess.2 with ⟨rfl, hwrite⟩ | ⟨rfl, hdist⟩
    · exact hseven.write hwrite
    · exact hfailed _ _ _ _ herr hdist
  | uninit len =>
    have hsame : w' = w := hbus
    rw [hsame]
    exact ⟨huninit _ _ _, hw⟩
  | spiOpen csPin freq => exact absurd rfl (he.1 csPin freq)

end

/-! ## What the wire shows of an access -/

section
variable {σ : Type} {h : Int} {o : Obs (Int × σ) BusEvent BusEvent.Resp}

/-- With a handle, the calls of an access succeed when the access does. -/
theorem onWire_good (hopen : ¬ h < 0) (hpre : o.pre.1 = h) :
    (∀ c ∈ onWire o, c.2 ≠ none) ↔ Good o.event o.resp := by
  obtain ⟨w, e, r⟩ := o
  obtain rfl : w.1 = h := hpre
  cases e with
  | read reg len =>
    simp only [onWire, if_neg hopen, List.forall_mem_singleton]
    by_cases hr : r.retval = Status.ok
    · simp only [hr, if_true, Good, ne_eq, reduceCtorEq, not_false_eq_true]
    · simp only [hr, if_false, Good, ne_eq, not_true_eq_false]
  | write reg data =>
    change (∀ c ∈ (if w.1 < 0 then [] else [_]), _) ↔ r = Status.ok
    rw [if_neg hopen]
    simp only [List.forall_mem_singleton]
    by_cases hr : r = Status.ok
    · rw [if_pos hr]
      simp [hr]
    · rw [if_neg hr]
      simp [hr]
  | uninit len => simp [onWire, Good]
  | spiOpen csPin freq => simp [onWire, Good]

theorem eq_of_addr_eq {reg other : Byte} (hmsb : reg.msb = false) (hmsb' : other.msb = false)
    (heq : addr reg = addr other) : reg = other := by
  have hlt := BitVec.msb_eq_false_iff_two_mul_lt.mp hmsb
  have hlt' := BitVec.msb_eq_false_iff_two_mul_lt.mp hmsb'
  have hnat := congrArg BitVec.toNat heq
  unfold addr at hnat
  rw [BitVec.toNat_setWidth, BitVec.toNat_setWidth] at hnat
  apply BitVec.eq_of_toNat_eq
  omega

theorem readTmp_inj {reg other : Byte} {len len' : Nat} (hmsb : reg.msb = false)
    (hmsb' : other.msb = false) (heq : readTmp reg len = readTmp other len') :
    reg = other ∧ len = len' := by
  have hlen := congrArg List.length heq
  rw [length_readTmp, length_readTmp] at hlen
  have haddr := congrArg (BitVec.setWidth 7) (List.cons.inj heq).1
  rw [setWidth_tmp reg rfl, setWidth_tmp other rfl] at haddr
  exact ⟨eq_of_addr_eq hmsb hmsb' haddr, Nat.succ.inj hlen⟩

/-- The answer of the identity register, on the wire and off it. -/
theorem onWire_whoAmI (hopen : ¬ h < 0) (hpre : o.pre.1 = h) (hplain : Plain o.event) {id : Byte} :
    (WireEvent.spiXfer h (readTmp agb0RegWhoAmI 1), some [id]) ∈ onWire o ↔
      ∃ w r, o = ⟨w, .read agb0RegWhoAmI 1, r⟩ ∧ r.retval = Status.ok ∧ r.val 0 = id := by
  obtain ⟨w, e, r⟩ := o
  obtain rfl : w.1 = h := hpre
  constructor
  · intro hmem
    cases e with
    | read reg len =>
      rw [onWire, if_neg hopen, List.mem_singleton, Prod.mk.injEq] at hmem
      obtain ⟨hcall, hbrought⟩ := hmem
      obtain ⟨rfl, rfl⟩ := readTmp_inj rfl (hplain.2 reg rfl) (WireEvent.spiXfer.inj hcall).2
      by_cases hr : r.retval = Status.ok
      · rw [if_pos hr, List.ofFn_succ] at hbrought
        have hid := (List.cons.inj (Option.some.inj hbrought)).1
        exact ⟨w, r, rfl, hr, hid.symm⟩
      · rw [if_neg hr] at hbrought
        cases hbrought
    | write reg data =>
      change _ ∈ (if w.1 < 0 then [] else [_]) at hmem
      rw [if_neg hopen, List.mem_singleton, Prod.mk.injEq] at hmem
      cases hmem.1
    | uninit len =>
      rw [onWire, List.mem_singleton, Prod.mk.injEq] at hmem
      cases hmem.1
    | spiOpen csPin freq => exact absurd rfl (hplain.1 csPin freq)
  · rintro ⟨w', r', heq, hr, rfl⟩
    obtain ⟨rfl, rfl, hresp⟩ := Obs.mk.inj heq
    obtain rfl := eq_of_heq hresp
    rw [onWire, if_neg hopen, if_pos hr, List.ofFn_succ]
    exact List.mem_singleton.mpr rfl

end

/-! ## `begin` -/

/-- With another state in the observations the same accesses succeed. -/
theorem allOk_map {σ σ' : Type} (f : σ → σ') (tr : BusTrace σ) :
    AllOk (tr.map (Obs.map f)) ↔ AllOk tr := by
  induction tr with
  | nil => exact iff_of_true allOk_nil allOk_nil
  | cons o tr ih =>
    rw [List.map_cons, allOk_cons, allOk_cons, ih]
    exact Iff.rfl

theorem readsWhoAmI_map {σ σ' : Type} (f : σ → σ') (tr : BusTrace σ) (id : Byte) :
    ReadsWhoAmI (tr.map (Obs.map f)) id ↔
      ∃ w r, (⟨w, .read agb0RegWhoAmI 1, r⟩ : Obs σ BusEvent BusEvent.Resp) ∈ tr ∧
        r.val 0 = id := by
  constructor
  · rintro ⟨s, r, hmem, hid⟩
    obtain ⟨o, ho, heq⟩ := List.mem_map.mp hmem
    obtain ⟨w, e, r'⟩ := o
    obtain ⟨-, rfl, hresp⟩ := Obs.mk.inj heq
    obtain rfl := eq_of_heq hresp
    exact ⟨w, r', ho, hid⟩
  · rintro ⟨w, r, hmem, hid⟩
    exact ⟨f w, r, List.mem_map.mpr ⟨_, hmem, rfl⟩, hid⟩

section
variable {reset : RegFile} {disturbed : RegFile → RegFile → Prop}

/-- The start-up through an open handle. -/
theorem spi_startup {h h' : Int} (hopen : ¬ h < 0) {before after : RegFile}
    {tr : BusTrace (Int × RegFile)} {retval : Status}
    (hexec : Prog.Exec ((onSpi (chip reset)).bus disturbed) startup (h, before) tr retval
      (h', after)) :
    h' = h ∧ (retval = Status.ok ↔ (∀ c ∈ tr.flatMap onWire, c.2 ≠ none) ∧
      (WireEvent.spiXfer h (readTmp agb0RegWhoAmI 1), some [whoAmI]) ∈ tr.flatMap onWire) ∧
      ∃ t, Prog.Exec (chip reset) startup before t retval after := by
  have hstep : ∀ (w : Int × RegFile) e r (w' : Int × RegFile), Plain e → w.1 = h →
      (onSpi (chip reset)).bus disturbed w e r w' → chip reset w.2 e r w'.2 ∧ w'.1 = h := by
    intro w e r w' he hw hbus
    have huninit : ∀ regs len (garbage : Fin len → Byte),
        chip reset regs (.uninit len) garbage regs := fun _ _ _ _ => rfl
    exact bus_onSpi (sevenBits_chip reset) huninit (fun _ _ _ _ hbad _ hgood => absurd hgood hbad)
      (Int.not_lt.mp hopen) he hw hbus
  obtain ⟨hchip, hh, hpre⟩ := Prog.Exec.project hstep plain_startup rfl hexec
  refine ⟨hh, ?_, _, hchip⟩
  rw [startup_ok_iff hchip, allOk_map, readsWhoAmI_map]
  have hall : AllOk tr ↔ ∀ c ∈ tr.flatMap onWire, c.2 ≠ none := by
    rw [List.forall_mem_flatMap]
    exact forall₂_congr fun o ho => (onWire_good hopen (hpre o ho).1).symm
  rw [← hall]
  refine and_congr_right fun hgood => ?_
  rw [List.mem_flatMap]
  constructor
  · rintro ⟨w, r, hmem, hid⟩
    have hr : r.retval = Status.ok := hgood _ hmem
    obtain ⟨hw, hplain⟩ := hpre _ hmem
    exact ⟨_, hmem, (onWire_whoAmI hopen hw hplain).mpr ⟨w, r, rfl, hr, hid⟩⟩
  · rintro ⟨o, ho, hmem⟩
    obtain ⟨hw, hplain⟩ := hpre o ho
    obtain ⟨w, r, rfl, -, hid⟩ := (onWire_whoAmI hopen hw hplain).mp hmem
    exact ⟨w, r, ho, hid⟩

theorem startup_brings_up (hreset : PwrMgmt1.deviceReset.get (reset.get agb0RegPwrMgmt1) = 0)
    {before after : RegFile} {tr : BusTrace RegFile}
    (hexec : Prog.Exec (chip reset) startup before tr Status.ok after) :
    BroughtUp reset after := by
  obtain ⟨regs₁, t₁, u₁, hswReset, hrest⟩ := exec_guard_ok hexec
  obtain ⟨regs₂, t₂, u₂, hcheckId, htail⟩ := exec_guard_ok hrest
  have hregs₁ : regs₁ = reset := chip_swReset hswReset
  have hregs₂ : regs₂ = reset := by
    obtain ⟨r, hread, -, hret⟩ := exec_checkId.mp hcheckId
    have hr : r.retval = Status.ok := by
      by_contra hne
      rw [if_pos hne] at hret
      exact hne hret.symm
    exact (stores_chip reset _ _ _ _ hread hr id).1.trans hregs₁
  rw [hregs₂] at htail
  rw [chip_startupTail hreset htail]
  exact broughtUp_configured reset

end

/-- The sound chip at the other end of the bus. -/
def soundWire (reset : RegFile) : Handler RegFile WireEvent WireEvent.Resp
  | .spiWrite _ buf, regs => (BitVec.ofNat 32 buf.length, match buf with
    | [] => regs
    | first :: data => (soundChip reset (.write ((first.setWidth 7).setWidth 8) data) regs).2)
  | .spiXfer _ txBuf, regs => ((BitVec.ofNat 32 txBuf.length, fun i => match txBuf with
    | [] => 0
    | first :: _ => regs (first.setWidth 7 + BitVec.ofNat 7 (i - 1))), regs)
  | .spiOpen _ _, regs => ((0 : Int), regs)
  | .uninit _, regs => (fun _ => 0, regs)

/-- A write or a read, of few bytes. -/
def ShortCall : WireEvent → Bool
  | .spiWrite _ buf => buf.length < 16 && !(buf.headD 0).msb && !buf.isEmpty
  | .spiXfer _ txBuf => txBuf.length < 16 && (txBuf.headD 0).msb && !txBuf.isEmpty
  | .spiOpen _ _ | .uninit _ => true

theorem wire_soundWire {reset regs regs' : RegFile} {e : WireEvent} {r : e.Resp}
    (hshort : ShortCall e = true) (h : (soundWire reset).env regs e r regs') :
    (onSpi (chip reset)).wire (fun _ _ => False) regs e r regs' := by
  cases e with
  | spiWrite handle buf =>
    cases buf with
    | nil => cases hshort
    | cons first data =>
      simp only [ShortCall, List.headD_cons, Bool.and_eq_true, Bool.not_eq_true',
        decide_eq_true_eq] at hshort
      obtain ⟨rfl, rfl⟩ := Prod.mk.inj h
      refine ⟨Nat.lt_trans hshort.1.1 (by omega), .inl ⟨rfl, fun _ => 0, ?_⟩⟩
      rw [clock_cons, hshort.1.2]
      exact chip_soundChip reset regs _ _ _ rfl
  | spiXfer handle txBuf =>
    cases txBuf with
    | nil => cases hshort
    | cons first rest =>
      simp only [ShortCall, List.headD_cons, Bool.and_eq_true, decide_eq_true_eq] at hshort
      obtain ⟨rfl, rfl⟩ := Prod.mk.inj h
      refine ⟨Nat.lt_trans hshort.1.1 (by omega), .inl ⟨rfl, ?_⟩⟩
      rw [clock_cons, if_pos hshort.1.2]
      refine fun _ => ⟨rfl, fun _ => ?_⟩
      rw [addr_setWidth]
      rfl
  | spiOpen csPin freq => exact (Prod.mk.inj h).2.symm
  | uninit len => exact (Prod.mk.inj h).2.symm

end SimuSound.Imu
