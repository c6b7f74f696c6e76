import SimuSound.Imu.ControlFields
import SimuSound.Imu.Interference
import SimuSound.Imu.Object

/-!
# InterruptSettings — the INT pin and the interrupt enables while accesses fail

Six methods configure the INT pin and eight enable interrupts, each by reading everything, setting
its own part and writing everything back.  A method that fails half-way has rewritten some of the
registers, and the settings in them all the same are those of before or those asked for.
-/

namespace SimuSound.Imu

open Reasoning

/-! ## A device with failures -/

/-- A successful access does what it asks for, a failed one nothing. -/
def failingDevice : Env RegFile BusEvent BusEvent.Resp := fun regs e r regs' =>
  if Good e r then Access regs e r regs' else regs' = regs

/-- The register holds `b` if it was written, and otherwise what it held. -/
def WrittenAs (reg b : Byte) (tr : BusTrace RegFile) (regs regs' : RegFile) : Prop :=
  (Wrote reg tr → regs'.get reg = b) ∧ (¬ Wrote reg tr → regs'.get reg = regs.get reg)

/-- The access is none that writes. -/
def Reads (e : BusEvent) : Prop := e.isWrite = false

section
variable {reg other b dest : Byte} {regs regs' : RegFile} {tr : BusTrace RegFile}

theorem not_writesTo {e : BusEvent} (he : Reads e) (reg : Byte) : ¬ e.writesTo reg = true := by
  cases e with
  | write r data => exact absurd he Bool.noConfusion
  | _ => exact Bool.noConfusion

/-- Code that only reads leaves the registers alone. -/
theorem failing_reads {α : Type} {p : Io α} {a : α} (huses : p.Uses Reads)
    (hexec : Prog.Exec failingDevice p regs tr a regs') : regs' = regs ∧ ∀ reg, ¬ Wrote reg tr := by
  have hstep (s : RegFile) (e : BusEvent) (r : e.Resp) (s' : RegFile) (he : Reads e)
      (henv : failingDevice s e r s') : s' = s := by
    unfold failingDevice at henv
    split at henv
    · cases e with
      | read reg len => exact henv.1
      | write reg data => exact absurd he Bool.noConfusion
      | uninit len => exact henv
      | spiOpen csPin freq => exact henv
    · exact henv
  refine ⟨(Prog.Exec.steady hstep huses hexec).1, ?_⟩
  rintro reg ⟨o, ho, hwrite, -⟩
  exact not_writesTo (huses.exec hexec o ho) reg hwrite

theorem reads_readByte (reg dest : Byte) : (readByte reg dest).Uses Reads :=
  ⟨rfl, fun _ => trivial⟩

theorem failing_readByte {r : Read Byte} (hport : isPort reg = false)
    (hexec : Prog.Exec failingDevice (readByte reg dest) regs tr r regs') (hok : r.retval = Status.ok) :
    r.val = regs.get reg := by
  obtain ⟨answer, henv, hgood, hval, -⟩ := exec_readByte_ok hexec hok
  unfold failingDevice at henv
  rw [if_pos (show Good (.read reg 1) answer from hgood)] at henv
  rw [hval, henv.2 hport]
  exact congrArg regs (BitVec.add_zero _)

theorem failing_writeByte {retval : Status} (hport : isPort reg = false)
    (hexec : Prog.Exec failingDevice (writeByte reg b) regs tr retval regs') :
    (Wrote other tr ↔ reg = other ∧ retval = Status.ok) ∧
      regs' = if retval = Status.ok then regs.set reg b else regs := by
  obtain ⟨henv, rfl⟩ := (Prog.exec_perform _ _ _ _ _ _).mp hexec
  constructor
  · constructor
    · rintro ⟨o, ho, hwrite, hgood⟩
      rw [List.mem_singleton.mp ho] at hwrite hgood
      exact ⟨of_decide_eq_true hwrite, hgood⟩
    · rintro ⟨rfl, hok⟩
      exact ⟨_, List.mem_singleton_self _, decide_eq_true rfl, hok⟩
  · unfold failingDevice at henv
    by_cases hok : retval = Status.ok
    · rw [if_pos (show Good (.write reg [b]) retval from hok)] at henv
      have hstore : regs' = if isPort reg then regs else regs.store (addr reg) [b] := henv
      rw [if_pos hok, hstore, hport]
      rfl
    · rw [if_neg (show ¬ Good (.write reg [b]) retval from hok)] at henv
      rw [if_neg hok, henv]

end

/-! ## Registers written one after another -/

/-- Bytes written to registers, up to the first failure. -/
def writeBytes : List (Byte × Byte) → Io Status
  | [] => pure Status.ok
  | (reg, b) :: rest => do
    let retval ← writeByte reg b
    if retval ≠ Status.ok then return retval
    writeBytes rest

theorem writeBytes_singleton (reg b : Byte) : writeBytes [(reg, b)] = writeByte reg b := by
  unfold writeBytes writeBytes
  conv_rhs => rw [← bind_pure (writeByte reg b)]
  refine bind_congr fun retval => ?_
  by_cases hok : retval = Status.ok
  · rw [if_neg (not_not_intro hok), hok]
  · rw [if_pos hok]

/-- Each register was written or left alone, all of them were if the result is `Ok`, and nothing
else was touched. -/
structure WrittenInTurn (writes : List (Byte × Byte)) (retval : Status) (tr : BusTrace RegFile)
    (regs regs' : RegFile) : Prop where
  each : ∀ w ∈ writes, WrittenAs w.1 w.2 tr regs regs'
  others : ∀ a, (∀ w ∈ writes, a ≠ addr w.1) → regs' a = regs a
  all : retval = Status.ok → ∀ w ∈ writes, Wrote w.1 tr
  only : ∀ reg, (∀ w ∈ writes, reg ≠ w.1) → ¬ Wrote reg tr

section
variable {regs regs' : RegFile} {tr : BusTrace RegFile} {retval : Status}

theorem writtenInTurn_stopped {writes : List (Byte × Byte)} (hbad : retval ≠ Status.ok)
    (hnone : ∀ reg, ¬ Wrote reg tr) : WrittenInTurn writes retval tr regs regs where
  each := fun w _ => ⟨fun hw => absurd hw (hnone w.1), fun _ => rfl⟩
  others := fun _ _ => rfl
  all := fun hok => absurd hok hbad
  only := fun reg _ => hnone reg

theorem WrittenInTurn.cons {reg b : Byte} {writes : List (Byte × Byte)} {t₁ t₂ : BusTrace RegFile}
    (h : WrittenInTurn writes retval t₂ (regs.set reg b) regs')
    (hdistinct : ∀ w ∈ writes, addr reg ≠ addr w.1) (hfirst : ∀ other, Wrote other t₁ ↔ reg = other) :
    WrittenInTurn ((reg, b) :: writes) retval (t₁ ++ t₂) regs regs' where
  each := by
    intro w hw
    unfold WrittenAs
    rw [wrote_append, hfirst]
    rcases List.mem_cons.mp hw with rfl | hw
    · -- the later writes are to other registers
      have hstays := (h.others (addr reg) hdistinct).trans (RegFile.get_set regs reg b)
      exact ⟨fun _ => hstays, fun hno => absurd (Or.inl rfl) hno⟩
    · obtain ⟨hwritten, hleft⟩ := h.each w hw
      have hne : reg ≠ w.1 := fun he => hdistinct w hw (congrArg addr he)
      rw [RegFile.get_set_of_ne regs (hdistinct w hw).symm] at hleft
      rw [or_iff_right hne]
      exact ⟨hwritten, hleft⟩
  others := by
    intro a ha
    obtain ⟨hhead, htail⟩ := List.forall_mem_cons.mp ha
    exact (h.others a htail).trans (Function.update_of_ne hhead _ _)
  all := by
    intro hok w hw
    rw [wrote_append, hfirst]
    rcases List.mem_cons.mp hw with rfl | hw
    · exact Or.inl rfl
    · exact Or.inr (h.all hok w hw)
  only := by
    intro other hother
    obtain ⟨hhead, htail⟩ := List.forall_mem_cons.mp hother
    rw [wrote_append, hfirst, not_or]
    exact ⟨fun he => hhead he.symm, h.only other htail⟩

theorem failing_writeBytes {writes : List (Byte × Byte)}
    (hport : ∀ reg ∈ writes.map Prod.fst, isPort reg = false)
    (hdistinct : (writes.map Prod.fst).Pairwise fun reg other => addr reg ≠ addr other)
    (hexec : Prog.Exec failingDevice (writeBytes writes) regs tr retval regs') :
    WrittenInTurn writes retval tr regs regs' := by
  induction writes generalizing regs tr with
  | nil =>
    obtain ⟨rfl, rfl, rfl⟩ := hexec
    exact ⟨fun w hw => absurd hw List.not_mem_nil, fun _ _ => rfl,
      fun _ w hw => absurd hw List.not_mem_nil, fun _ _ => not_wrote_nil⟩
  | cons w rest ih =>
    obtain ⟨reg, b⟩ := w
    obtain ⟨hporthead, hporttail⟩ := List.forall_mem_cons.mp hport
    obtain ⟨hhead, htail⟩ := List.pairwise_cons.mp hdistinct
    obtain ⟨retval₁, regs₁, t₁, t₂, rfl, hwrite, hrest⟩ := exec_guard.mp hexec
    have hwrote (other : Byte) := (@failing_writeByte reg other b _ _ _ _ hporthead hwrite).1
    have hregs := (@failing_writeByte reg reg b _ _ _ _ hporthead hwrite).2
    by_cases hok : retval₁ = Status.ok
    · rw [if_pos hok] at hrest hregs
      rw [hregs] at hrest
      refine (ih hporttail htail hrest).cons (fun w hw => ?_) fun other => ?_
      · exact hhead w.1 (List.mem_map_of_mem hw)
      · rw [hwrote, and_iff_left hok]
    · rw [if_neg hok] at hrest hregs
      obtain ⟨rfl, rfl, rfl⟩ := hrest
      rw [hregs, List.append_nil]
      exact writtenInTurn_stopped hok fun other hw => hok ((hwrote other).mp hw).2

end

/-! ## The driver's two functions -/

def enableRegs : List Byte :=
  [agb0RegIntEnable, agb0RegIntEnable1, agb0RegIntEnable2, agb0RegIntEnable3]

theorem enableRegs_plain : ∀ reg ∈ enableRegs, isPort reg = false := by decide

theorem enableRegs_distinct : enableRegs.Pairwise fun reg other => addr reg ≠ addr other := by
  decide

/-- The registers of the enables, with what `int_enable` writes to them. -/
def enableWrites (w : IntEnables) : List (Byte × Byte) :=
  [(agb0RegIntEnable, w.en0 0), (agb0RegIntEnable1, w.en1 0), (agb0RegIntEnable2, w.en2 0),
    (agb0RegIntEnable3, w.en3 0)]

theorem intEnableWrite_eq (w : IntEnables) (en : Fin 4 → Byte) :
    intEnableWrite w en = writeBytes (enableWrites w) := by
  unfold intEnableWrite enableWrites
  rw [en0_eq, en1_eq, en2_eq, en3_eq]
  unfold writeBytes writeBytes writeBytes
  rw [writeBytes_singleton]

section
variable {regs regs' : RegFile} {tr : BusTrace RegFile}

theorem reads_intEnableRead (dest : IntEnables) (en : Fin 4 → Byte) :
    (intEnableRead dest en).Uses Reads :=
  uses_guardRead (reads_readByte _ _) fun _ => uses_guardRead (reads_readByte _ _) fun _ =>
    uses_guardRead (reads_readByte _ _) fun _ => uses_guardRead (reads_readByte _ _) fun _ => trivial

/-- A read that is checked has read the register when the function ends well. -/
theorem failing_guardRead {α : Type} {reg dest : Byte} {f : Read Byte → Read α}
    {q : Read Byte → Io (Read α)} {r : Read α} (hport : isPort reg = false)
    (hfail : ∀ x, (f x).retval = x.retval)
    (hexec : Prog.Exec failingDevice (readByte reg dest >>= fun x =>
      if x.retval ≠ Status.ok then pure (f x) else q x) regs tr r regs')
    (hok : r.retval = Status.ok) :
    ∃ t, Prog.Exec failingDevice (q ⟨Status.ok, regs.get reg⟩) regs t r regs' := by
  obtain ⟨x, regs₁, t₁, t₂, -, hread, hrest⟩ := exec_guardRead.mp hexec
  obtain ⟨rfl, -⟩ := failing_reads (reads_readByte _ _) hread
  by_cases hx : x.retval = Status.ok
  · rw [if_pos hx] at hrest
    have hval := failing_readByte hport hread hx
    exact ⟨t₂, by rwa [← hx, ← hval]⟩
  · rw [if_neg hx] at hrest
    obtain ⟨-, rfl, -⟩ := hrest
    exact absurd ((hfail x).symm.trans hok) hx

/-- When the four reads succeed they give the setting. -/
theorem failing_intEnableRead {dest : IntEnables} {en : Fin 4 → Byte} {r : Read IntEnables}
    (hexec : Prog.Exec failingDevice (intEnableRead dest en) regs tr r regs')
    (hok : r.retval = Status.ok) : r.val = Setting.read .interruptEnables regs := by
  let f (x : Read Byte) : Read IntEnables := ⟨x.retval, dest⟩
  obtain ⟨t₀, hexec₀⟩ := failing_guardRead (f := f) rfl (fun _ => rfl) hexec hok
  obtain ⟨t₁, hexec₁⟩ := failing_guardRead (f := f) rfl (fun _ => rfl) hexec₀ hok
  obtain ⟨t₂, hexec₂⟩ := failing_guardRead (f := f) rfl (fun _ => rfl) hexec₁ hok
  obtain ⟨t₃, hexec₃⟩ := failing_guardRead (f := f) rfl (fun _ => rfl) hexec₂ hok
  obtain ⟨-, rfl, -⟩ := hexec₃
  rfl

/-- Reading after the writes changes none of that. -/
theorem WrittenInTurn.thenReads {writes : List (Byte × Byte)} {retval retval' : Status}
    {regs₁ : RegFile} {t₁ t₂ : BusTrace RegFile} (h : WrittenInTurn writes retval t₁ regs regs₁)
    (hregs : regs' = regs₁) (hnone : ∀ reg, ¬ Wrote reg t₂)
    (hok : retval' = Status.ok → retval = Status.ok) :
    WrittenInTurn writes retval' (t₁ ++ t₂) regs regs' := by
  have hwrote (reg : Byte) : Wrote reg (t₁ ++ t₂) ↔ Wrote reg t₁ := by
    rw [wrote_append, or_iff_left (hnone reg)]
  rw [hregs]
  refine ⟨fun w hw => ?_, h.others, fun hend w hw => ?_, fun reg hreg => ?_⟩
  · unfold WrittenAs
    rw [hwrote]
    exact h.each w hw
  · rw [hwrote]
    exact h.all (hok hend) w hw
  · rw [hwrote]
    exact h.only reg hreg

/-- And so does reading before them. -/
theorem WrittenInTurn.afterReads {writes : List (Byte × Byte)} {retval : Status}
    {t₁ t₂ : BusTrace RegFile} (h : WrittenInTurn writes retval t₂ regs regs')
    (hnone : ∀ reg, ¬ Wrote reg t₁) : WrittenInTurn writes retval (t₁ ++ t₂) regs regs' := by
  have hwrote (reg : Byte) : Wrote reg (t₁ ++ t₂) ↔ Wrote reg t₂ := by
    rw [wrote_append, or_iff_right (hnone reg)]
  refine ⟨fun w hw => ?_, h.others, fun hend w hw => ?_, fun reg hreg => ?_⟩
  · unfold WrittenAs
    rw [hwrote]
    exact h.each w hw
  · rw [hwrote]
    exact h.all hend w hw
  · rw [hwrote]
    exact h.only reg hreg

theorem failing_intEnable_read {dest : IntEnables} {r : Read (Option IntEnables)}
    (hexec : Prog.Exec failingDevice (intEnable none (some dest)) regs tr r regs') :
    regs' = regs ∧ (∀ reg, ¬ Wrote reg tr) ∧
      (r.retval = Status.ok → r.val = some (Setting.read .interruptEnables regs)) := by
  have huses : (intEnable none (some dest)).Uses Reads :=
    ⟨rfl, fun en => (reads_intEnableRead dest en).bind fun _ => trivial⟩
  obtain ⟨hregs, hnone⟩ := failing_reads huses hexec
  refine ⟨hregs, hnone, fun hok => ?_⟩
  obtain ⟨en, regs₁, t₁, hen, -, hrest⟩ := hexec
  have hrest₁ : Prog.Exec failingDevice (intEnableRead dest en >>= fun r =>
      pure (⟨r.retval, some r.val⟩ : Read (Option IntEnables))) regs₁ t₁ r regs' := hrest
  obtain ⟨x, regs₂, t₂, t₃, -, hread, -, rfl, -⟩ := (Prog.exec_bind _ _ _ _ _ _ _).mp hrest₁
  have hregs₁ : regs₁ = regs := hen
  change some x.val = _
  rw [failing_intEnableRead hread hok, hregs₁]

theorem failing_intEnable_write {w dest : IntEnables} {r : Read (Option IntEnables)}
    (hexec : Prog.Exec failingDevice (intEnable (some w) (some dest)) regs tr r regs') :
    WrittenInTurn (enableWrites w) r.retval tr regs regs' := by
  obtain ⟨en, regs₁, t₁, hen, rfl, hexec₁⟩ := hexec
  obtain rfl : regs₁ = regs := hen
  let q : Io (Read (Option IntEnables)) :=
    intEnableRead dest en >>= fun r => pure ⟨r.retval, some r.val⟩
  change Prog.Exec failingDevice (intEnableWrite w en >>= fun retval =>
    if retval ≠ Status.ok then pure ⟨retval, some dest⟩ else q) _ _ _ _ at hexec₁
  obtain ⟨retval, regs₂, t₂, t₃, rfl, hwrite, hrest⟩ := exec_guard.mp hexec₁
  rw [intEnableWrite_eq] at hwrite
  have hwritten : WrittenInTurn (enableWrites w) retval t₂ regs₁ regs₂ :=
    failing_writeBytes enableRegs_plain enableRegs_distinct hwrite
  -- the garbage in the locals is no access
  rw [← List.singleton_append]
  refine WrittenInTurn.afterReads ?_ ?_
  · by_cases hok : retval = Status.ok
    · rw [if_pos hok] at hrest
      have huses : q.Uses Reads := (reads_intEnableRead dest en).bind fun _ => trivial
      obtain ⟨hregs, hnone⟩ := failing_reads huses hrest
      exact hwritten.thenReads hregs hnone fun _ => hok
    · rw [if_neg hok] at hrest
      obtain ⟨rfl, rfl, rfl⟩ := hrest
      exact hwritten.thenReads rfl (fun _ => not_wrote_nil) id
  · rintro reg ⟨o, ho, hwrite, -⟩
    rw [List.mem_singleton.mp ho] at hwrite
    exact Bool.noConfusion hwrite

theorem failing_intPinCfg_read {dest : Byte} {r : Read (Option Byte)}
    (hexec : Prog.Exec failingDevice (intPinCfg none (some dest)) regs tr r regs') :
    regs' = regs ∧ (∀ reg, ¬ Wrote reg tr) ∧
      (r.retval = Status.ok → r.val = some (Setting.read .intPin regs)) := by
  have huses : (intPinCfg none (some dest)).Uses Reads :=
    (reads_readByte _ dest).bind fun _ => trivial
  obtain ⟨hregs, hnone⟩ := failing_reads huses hexec
  refine ⟨hregs, hnone, fun hok => ?_⟩
  have hexec₁ : Prog.Exec failingDevice (readByte agb0RegIntPinConfig dest >>= fun r =>
      pure (⟨r.retval, some r.val⟩ : Read (Option Byte))) regs tr r regs' := hexec
  obtain ⟨x, regs₁, t₁, t₂, -, hread, -, rfl, -⟩ := (Prog.exec_bind _ _ _ _ _ _ _).mp hexec₁
  exact congrArg some (failing_readByte rfl hread hok)

theorem failing_intPinCfg_write {w : Byte} {r : Read (Option Byte)}
    (hexec : Prog.Exec failingDevice (intPinCfg (some w) none) regs tr r regs') :
    WrittenInTurn [(agb0RegIntPinConfig, w)] r.retval tr regs regs' := by
  have hexec₁ : Prog.Exec failingDevice (writeByte agb0RegIntPinConfig w >>= fun retval =>
      if retval ≠ Status.ok then pure (⟨retval, none⟩ : Read (Option Byte))
      else pure ⟨retval, none⟩) regs tr r regs' := hexec
  obtain ⟨retval, regs₁, t₁, t₂, rfl, hwrite, hrest⟩ := exec_guard.mp hexec₁
  rw [← writeBytes_singleton] at hwrite
  have hport : ∀ reg ∈ [agb0RegIntPinConfig], isPort reg = false := by decide
  have hwritten : WrittenInTurn [(agb0RegIntPinConfig, w)] retval t₁ regs regs₁ :=
    failing_writeBytes hport (List.pairwise_singleton _ _) hwrite
  -- the function ends after the write, whether it has failed or not
  obtain ⟨rfl, rfl, rfl⟩ := (ite_self (c := retval = Status.ok) _).mp hrest
  exact hwritten.thenReads rfl (fun _ => not_wrote_nil) id

end

/-! ## The methods -/

namespace Icm20948

section
variable {icm icm' : Icm20948} {regs regs' : RegFile} {tr : BusTrace RegFile} {retval : Status}

/-- A call of the driver whose status is reported and ends the method if it is bad. -/
theorem exec_reportRead {α : Type} {env : Env RegFile BusEvent BusEvent.Resp} {p : Io (Read α)}
    {q : Read α → Method Status}
    (hexec : Prog.Exec env ((do
      let r ← p
      let status ← report r.retval
      if status ≠ Status.ok then return status
      q r : Method Status).run icm) regs tr (retval, icm') regs') :
    ∃ r regs₁ t₁ t₂, tr = t₁ ++ t₂ ∧ Prog.Exec env p regs t₁ r regs₁ ∧
      if r.retval = Status.ok then
        Prog.Exec env ((q r).run { icm with status := r.retval }) regs₁ t₂ (retval, icm') regs'
      else t₂ = [] ∧ retval = r.retval ∧ regs' = regs₁ := by
  obtain ⟨r, icm₁, regs₁, t₁, t₂, rfl, hp, hrest⟩ := Prog.exec_bindM.mp hexec
  obtain ⟨hp', rfl⟩ := (Prog.exec_lift _ _ _ _ _ _ _ _).mp hp
  refine ⟨r, regs₁, t₁, t₂, rfl, hp', ?_⟩
  have hguard : Prog.Exec env ((if r.retval ≠ Status.ok then pure r.retval else q r :
      Method Status).run { icm₁ with status := r.retval }) regs₁ t₂ (retval, icm') regs' := hrest
  by_cases hok : r.retval = Status.ok
  · rw [if_pos hok]
    rw [if_neg (not_not_intro hok)] at hguard
    exact hguard
  · rw [if_neg hok]
    rw [if_pos hok] at hguard
    obtain ⟨rfl, hret, -, rfl⟩ := Prog.exec_pureM.mp hguard
    exact ⟨rfl, hret, rfl⟩

/-- A method that begins with code that only reads, such as its local variables. -/
theorem exec_readsFirst {α : Type} {p : Io α} {q : α → Method Status} (huses : p.Uses Reads)
    (hexec : Prog.Exec failingDevice ((liftM p >>= q : Method Status).run icm) regs tr
      (retval, icm') regs') :
    ∃ a t₁ t₂, tr = t₁ ++ t₂ ∧ (∀ reg, ¬ Wrote reg t₁) ∧
      Prog.Exec failingDevice ((q a).run icm) regs t₂ (retval, icm') regs' := by
  obtain ⟨a, icm₁, regs₁, t₁, t₂, rfl, hp, hrest⟩ := Prog.exec_bindM.mp hexec
  obtain ⟨hp', rfl⟩ := (Prog.exec_lift _ _ _ _ _ _ _ _).mp hp
  obtain ⟨rfl, hnone⟩ := failing_reads huses hp'
  exact ⟨a, t₁, t₂, rfl, hnone, hrest⟩

/-- A call of the driver and the report of its status end the method. -/
theorem exec_report {α : Type} {env : Env RegFile BusEvent BusEvent.Resp} {p : Io (Read α)}
    (hexec : Prog.Exec env ((do
      let r ← p
      report r.retval : Method Status).run icm) regs tr (retval, icm') regs') :
    ∃ r, Prog.Exec env p regs tr r regs' ∧ retval = r.retval := by
  obtain ⟨r, icm₁, regs₁, t₁, t₂, rfl, hp, hrest⟩ := Prog.exec_bindM.mp hexec
  obtain ⟨hp', rfl⟩ := (Prog.exec_lift _ _ _ _ _ _ _ _).mp hp
  obtain ⟨rfl, hret, -, rfl⟩ := Prog.exec_pureM.mp hrest
  exact ⟨r, by rwa [List.append_nil], hret⟩

theorem failing_cfgIntPin {field : BitField 8} {setting : Bool}
    (hexec : Prog.Exec failingDevice ((cfgIntPin field setting).run icm) regs tr (retval, icm')
      regs') :
    WrittenInTurn [(agb0RegIntPinConfig, field.set (bit setting) (Setting.read .intPin regs))]
      retval tr regs regs' := by
  have huninit : uninitByte.Uses Reads := ⟨rfl, fun _ => trivial⟩
  obtain ⟨reg, t₁, t₂, rfl, hnone₁, hexec₁⟩ := exec_readsFirst huninit hexec
  obtain ⟨r, regs₂, t₂, t₃, rfl, hread, hrest⟩ := exec_reportRead hexec₁
  obtain ⟨rfl, hnone₂, hval⟩ := failing_intPinCfg_read hread
  refine WrittenInTurn.afterReads ?_ hnone₁
  by_cases hok : r.retval = Status.ok
  · rw [if_pos hok, hval hok] at hrest
    obtain ⟨w, hwrite, hret⟩ := exec_report hrest
    rw [hret]
    exact (failing_intPinCfg_write hwrite).afterReads hnone₂
  · rw [if_neg hok] at hrest
    obtain ⟨rfl, rfl, rfl⟩ := hrest
    rw [List.append_nil]
    exact writtenInTurn_stopped hok hnone₂

theorem failing_intEnableWith {change : IntEnables → IntEnables} {confirmed : IntEnables → Bool}
    (hexec : Prog.Exec failingDevice ((intEnableWith change confirmed).run icm) regs tr
      (retval, icm') regs') :
    WrittenInTurn (enableWrites (change (Setting.read .interruptEnables regs))) retval tr regs
      regs' := by
  have huninit : (uninit 4).Uses Reads := ⟨rfl, fun _ => trivial⟩
  obtain ⟨garbage, t₁, t₂, rfl, hnone₁, hexec₁⟩ := exec_readsFirst huninit hexec
  obtain ⟨r, regs₂, t₂, t₃, rfl, hread, hrest⟩ := exec_reportRead hexec₁
  obtain ⟨rfl, hnone₂, hval⟩ := failing_intEnable_read hread
  refine WrittenInTurn.afterReads ?_ hnone₁
  by_cases hok : r.retval = Status.ok
  · rw [if_pos hok, hval hok] at hrest
    refine WrittenInTurn.afterReads ?_ hnone₂
    obtain ⟨w, regs₃, t₄, t₅, rfl, hwrite, hlast⟩ := exec_reportRead hrest
    have hwritten := failing_intEnable_write hwrite
    by_cases hok' : w.retval = Status.ok
    · -- what was read back decides the result, but not what is in the registers
      rw [if_pos hok'] at hlast
      split at hlast
      · obtain ⟨rfl, -, -, rfl⟩ := Prog.exec_pureM.mp hlast
        exact hwritten.thenReads rfl (fun _ => not_wrote_nil) fun _ => hok'
      · obtain ⟨rfl, -, -, rfl⟩ := Prog.exec_pureM.mp hlast
        exact hwritten.thenReads rfl (fun _ => not_wrote_nil) fun _ => hok'
    · rw [if_neg hok'] at hlast
      obtain ⟨rfl, rfl, rfl⟩ := hlast
      exact hwritten.thenReads rfl (fun _ => not_wrote_nil) id
  · rw [if_neg hok] at hrest
    obtain ⟨rfl, rfl, rfl⟩ := hrest
    rw [List.append_nil]
    exact writtenInTurn_stopped hok hnone₂

end

end Icm20948

/-! ## The settings -/

/-- `INT_PIN_CFG` and what `int_enable` reads. -/
structure IntSettings where
  pin : Byte
  enables : IntEnables

def intSettings (regs : RegFile) : IntSettings :=
  ⟨Setting.read .intPin regs, Setting.read .interruptEnables regs⟩

/-- The four registers of the enables, by number. -/
def enableReg : Fin 4 → Byte
  | 0 => agb0RegIntEnable
  | 1 => agb0RegIntEnable1
  | 2 => agb0RegIntEnable2
  | 3 => agb0RegIntEnable3

def enableMask : Fin 4 → Byte
  | 0 => intEnableMask
  | 1 => intEnable1Mask
  | 2 => intEnable2Mask
  | 3 => intEnable3Mask

def IntEnables.en (w : IntEnables) : Fin 4 → Byte
  | 0 => w.en0 0
  | 1 => w.en1 0
  | 2 => w.en2 0
  | 3 => w.en3 0

theorem enableWrites_eq (w : IntEnables) :
    enableWrites w = (List.finRange 4).map fun i => (enableReg i, w.en i) := rfl

theorem mem_enableWrites {w : IntEnables} {x : Byte × Byte} :
    x ∈ enableWrites w ↔ ∃ i, (enableReg i, w.en i) = x := by
  rw [enableWrites_eq, List.mem_map]
  simp only [List.mem_finRange, true_and]

theorem flag_set (f : BitField 8) (hwidth : f.width = 1) (v : Bool) (b : Byte) :
    flag f (f.set (bit v) b) = v := by
  have hfits := f.fits
  rw [flag_eq_getLsbD f hwidth, BitField.getLsbD_set f _ _ f.lsb (by omega),
    if_pos ⟨Nat.le_refl _, by omega⟩, Nat.sub_self]
  cases v <;> rfl

theorem flag_set_of_apart (f g : BitField 8) (h : f.Apart g) (v b : Byte) :
    flag g (f.set v b) = flag g b := by
  unfold flag
  rw [BitField.get_set_of_apart f g h]

/-- A setting reads back from the bytes written for it. -/
theorem ofRegs_en (w : IntEnables) : IntEnables.ofRegs (w.en 0) (w.en 1) (w.en 2) (w.en 3) = w := by
  unfold IntEnables.en IntEnables.en0 IntEnables.en1 IntEnables.en2 IntEnables.en3
  unfold IntEnables.ofRegs
  simp (disch := decide) only [flag_set, flag_set_of_apart]

/-- What the registers read as, register by register. -/
theorem enables_eq_iff {regs : RegFile} {w : IntEnables} :
    (intSettings regs).enables = w ↔
      ∀ i, BitField.AgreeOn (enableMask i) (regs.get (enableReg i)) (w.en i) := by
  conv_lhs => rw [← ofRegs_en w]
  refine (ofRegs_eq_iff _ _ _ _ _ _ _ _).trans ⟨fun h i => ?_, fun h => ⟨h 0, h 1, h 2, h 3⟩⟩
  match i with
  | 0 => exact h.1
  | 1 => exact h.2.1
  | 2 => exact h.2.2.1
  | 3 => exact h.2.2.2

/-! ## The calls -/

/-- The part of the settings that a method is for: a field of `INT_PIN_CFG`, or a change to the
enables in one of their registers. -/
inductive IntPart
  | pin (field : BitField 8) (setting : Bool)
  | enables (i : Fin 4) (change : IntEnables → IntEnables)

namespace IntPart

def reg : IntPart → Byte
  | .pin _ _ => agb0RegIntPinConfig
  | .enables i _ => enableReg i

def apply : IntPart → IntSettings → IntSettings
  | .pin field setting, s => { s with pin := field.set (bit setting) s.pin }
  | .enables _ change, s => { s with enables := change s.enables }

/-- Everything that a method for the part writes. -/
def writes : IntPart → IntSettings → List (Byte × Byte)
  | .pin field setting, s => [(agb0RegIntPinConfig, field.set (bit setting) s.pin)]
  | .enables _ change, s => enableWrites (change s.enables)

/-- The change is to enables of its register only. -/
def Local : IntPart → Prop
  | .pin _ _ => True
  | .enables i change => ∀ w k, k ≠ i → (change w).en k = w.en k

end IntPart

/-- The methods for the settings, with their arguments. -/
inductive IntCall
  | cfgIntActiveLow (activeLow : Bool)
  | cfgIntOpenDrain (openDrain : Bool)
  | cfgIntLatch (latching : Bool)
  | cfgIntAnyReadToClear (enabled : Bool)
  | cfgFsyncActiveLow (activeLow : Bool)
  | cfgFsyncIntMode (interruptMode : Bool)
  | intEnableI2C (enable : Bool)
  | intEnableDmp (enable : Bool)
  | intEnablePll (enable : Bool)
  | intEnableWom (enable : Bool)
  | intEnableWof (enable : Bool)
  | intEnableRawDataReady (enable : Bool)
  | intEnableOverflowFifo (bmEnable : Byte)
  | intEnableWatermarkFifo (bmEnable : Byte)

namespace IntCall

def method : IntCall → Method Status
  | .cfgIntActiveLow activeLow => Icm20948.cfgIntActiveLow activeLow
  | .cfgIntOpenDrain openDrain => Icm20948.cfgIntOpenDrain openDrain
  | .cfgIntLatch latching => Icm20948.cfgIntLatch latching
  | .cfgIntAnyReadToClear enabled => Icm20948.cfgIntAnyReadToClear enabled
  | .cfgFsyncActiveLow activeLow => Icm20948.cfgFsyncActiveLow activeLow
  | .cfgFsyncIntMode interruptMode => Icm20948.cfgFsyncIntMode interruptMode
  | .intEnableI2C enable => Icm20948.intEnableI2C enable
  | .intEnableDmp enable => Icm20948.intEnableDmp enable
  | .intEnablePll enable => Icm20948.intEnablePll enable
  | .intEnableWom enable => Icm20948.intEnableWom enable
  | .intEnableWof enable => Icm20948.intEnableWof enable
  | .intEnableRawDataReady enable => Icm20948.intEnableRawDataReady enable
  | .intEnableOverflowFifo bmEnable => Icm20948.intEnableOverflowFifo bmEnable
  | .intEnableWatermarkFifo bmEnable => Icm20948.intEnableWatermarkFifo bmEnable

/-- What the method is for. -/
def part : IntCall → IntPart
  | .cfgIntActiveLow activeLow => .pin IntPinCfg.int1Actl activeLow
  | .cfgIntOpenDrain openDrain => .pin IntPinCfg.int1Open openDrain
  | .cfgIntLatch latching => .pin IntPinCfg.int1LatchEn latching
  | .cfgIntAnyReadToClear enabled => .pin IntPinCfg.intAnyrd2clear enabled
  | .cfgFsyncActiveLow activeLow => .pin IntPinCfg.actlFsync activeLow
  | .cfgFsyncIntMode interruptMode => .pin IntPinCfg.fsyncIntModeEn interruptMode
  | .intEnableI2C enable => .enables 0 fun w => { w with i2cMstIntEn := enable }
  | .intEnableDmp enable => .enables 0 fun w => { w with dmpInt1En := enable }
  | .intEnablePll enable => .enables 0 fun w => { w with pllRdyEn := enable }
  | .intEnableWom enable => .enables 0 fun w => { w with womIntEn := enable }
  | .intEnableWof enable => .enables 0 fun w => { w with regWofEn := enable }
  | .intEnableRawDataReady enable => .enables 1 fun w => { w with rawData0RdyEn := enable }
  | .intEnableOverflowFifo bmEnable => .enables 2 fun w => { w with
      fifoOverflowEn0 := bmEnable.getLsbD 0, fifoOverflowEn1 := bmEnable.getLsbD 1
      fifoOverflowEn2 := bmEnable.getLsbD 2, fifoOverflowEn3 := bmEnable.getLsbD 3
      fifoOverflowEn4 := bmEnable.getLsbD 4 }
  | .intEnableWatermarkFifo bmEnable => .enables 3 fun w => { w with
      fifoWmEn0 := bmEnable.getLsbD 0, fifoWmEn1 := bmEnable.getLsbD 1
      fifoWmEn2 := bmEnable.getLsbD 2, fifoWmEn3 := bmEnable.getLsbD 3
      fifoWmEn4 := bmEnable.getLsbD 4 }

/-- Two calls of one method, whatever their arguments. -/
def SameMethod (c d : IntCall) : Prop := c.ctorIdx = d.ctorIdx

end IntCall

theorem part_local (c : IntCall) : c.part.Local := by
  cases c with
  | intEnableI2C _ | intEnableDmp _ | intEnablePll _ | intEnableWom _ | intEnableWof _
  | intEnableRawDataReady _ | intEnableOverflowFifo _ | intEnableWatermarkFifo _ =>
    intro w k hk
    match k with
    | 0 | 1 | 2 | 3 => first | rfl | exact absurd rfl hk
  | _ => trivial

/-- Every method is one of the two kinds. -/
theorem method_of_part (c : IntCall) :
    (∃ field setting, c.part = .pin field setting ∧
      c.method = Icm20948.cfgIntPin field setting) ∨
    ∃ i change confirmed, c.part = .enables i change ∧
      c.method = Icm20948.intEnableWith change confirmed := by
  cases c with
  | cfgIntActiveLow _ | cfgIntOpenDrain _ | cfgIntLatch _ | cfgIntAnyReadToClear _
  | cfgFsyncActiveLow _ | cfgFsyncIntMode _ => exact Or.inl ⟨_, _, rfl, rfl⟩
  | intEnableI2C enable => exact Or.inr ⟨_, _, fun w => w.i2cMstIntEn = enable, rfl, rfl⟩
  | intEnableDmp enable => exact Or.inr ⟨_, _, fun w => w.dmpInt1En = enable, rfl, rfl⟩
  | intEnablePll enable => exact Or.inr ⟨_, _, fun w => w.pllRdyEn = enable, rfl, rfl⟩
  | intEnableWom enable => exact Or.inr ⟨_, _, fun w => w.womIntEn = enable, rfl, rfl⟩
  | intEnableWof enable => exact Or.inr ⟨_, _, fun w => w.regWofEn = enable, rfl, rfl⟩
  | intEnableRawDataReady enable =>
    exact Or.inr ⟨_, _, fun w => w.rawData0RdyEn = enable, rfl, rfl⟩
  | _ => exact Or.inr ⟨_, _, fun _ => true, rfl, rfl⟩

/-- Whatever fails, a method writes its part and everything around it as it was. -/
theorem written_method {c : IntCall} {icm icm' : Icm20948} {regs regs' : RegFile}
    {tr : BusTrace RegFile} {retval : Status}
    (hexec : Prog.Exec failingDevice (c.method.run icm) regs tr (retval, icm') regs') :
    WrittenInTurn (c.part.writes (intSettings regs)) retval tr regs regs' := by
  rcases method_of_part c with ⟨field, setting, hpart, hmethod⟩ | ⟨i, change, confirmed, hpart, hmethod⟩
  · rw [hmethod] at hexec
    rw [hpart]
    exact Icm20948.failing_cfgIntPin hexec
  · rw [hmethod] at hexec
    rw [hpart]
    exact Icm20948.failing_intEnableWith hexec

/-! ## A step -/

section
variable {part : IntPart} {retval : Status} {tr : BusTrace RegFile} {regs regs' : RegFile}

theorem addr_pin_ne (i : Fin 4) : addr agb0RegIntPinConfig ≠ addr (enableReg i) := by
  revert i
  decide

/-- Every register of the enables holds what was written to it, or reads as before. -/
theorem agreeOn_written {change : IntEnables → IntEnables}
    (h : WrittenInTurn (enableWrites (change (intSettings regs).enables)) retval tr regs regs')
    (k : Fin 4) :
    BitField.AgreeOn (enableMask k) (regs'.get (enableReg k))
      (if Wrote (enableReg k) tr then (change (intSettings regs).enables).en k
        else (intSettings regs).enables.en k) := by
  obtain ⟨hwritten, hleft⟩ := h.each _ (mem_enableWrites.mpr ⟨k, rfl⟩)
  split
  · rename_i hwrote
    rw [show regs'.get (enableReg k) = _ from hwritten hwrote]
    exact BitField.agreeOn_refl _ _
  · rename_i hwrote
    rw [show regs'.get (enableReg k) = _ from hleft hwrote]
    exact enables_eq_iff.mp rfl k

/-- The register of the part decides, even when others have not been written. -/
theorem intSettings_written (hlocal : part.Local)
    (h : WrittenInTurn (part.writes (intSettings regs)) retval tr regs regs') :
    intSettings regs' = if Wrote part.reg tr then part.apply (intSettings regs)
      else intSettings regs := by
  cases part with
  | pin field setting =>
    have henables : (intSettings regs').enables = (intSettings regs).enables := by
      rw [enables_eq_iff]
      intro i
      have hsame : regs'.get (enableReg i) = regs.get (enableReg i) := by
        apply h.others
        intro w hw
        rw [List.mem_singleton.mp hw]
        exact (addr_pin_ne i).symm
      rw [hsame]
      exact enables_eq_iff.mp rfl i
    obtain ⟨hwritten, hleft⟩ := h.each _ (List.mem_singleton_self _)
    have hsettings (s : IntSettings) (hpin : (intSettings regs').pin = s.pin)
        (hs : s.enables = (intSettings regs).enables) : intSettings regs' = s := by
      cases s
      exact congrArg₂ IntSettings.mk hpin (henables.trans hs.symm)
    split
    · rename_i hwrote
      exact hsettings _ (hwritten hwrote) rfl
    · rename_i hwrote
      exact hsettings _ (hleft hwrote) rfl
  | enables i change =>
    let w := (intSettings regs).enables
    have hpin : (intSettings regs').pin = (intSettings regs).pin := by
      apply h.others
      intro x hx
      obtain ⟨k, rfl⟩ := mem_enableWrites.mp hx
      exact addr_pin_ne k
    have henables (w' : IntEnables) (hi : w'.en i = if Wrote (enableReg i) tr
        then (change w).en i else w.en i) (hk : ∀ k, k ≠ i → w'.en k = w.en k) :
        (intSettings regs').enables = w' := by
      rw [enables_eq_iff]
      intro k
      have hagree := agreeOn_written h k
      by_cases hki : k = i
      · subst hki
        rw [hi]
        exact hagree
      · -- the other registers were given what they held
        rw [hlocal w k hki, ite_self] at hagree
        rw [hk k hki]
        exact hagree
    split
    · rename_i hwrote
      exact congrArg₂ IntSettings.mk hpin
        (henables (change w) (if_pos hwrote).symm fun k hk => hlocal w k hk)
    · rename_i hwrote
      exact congrArg₂ IntSettings.mk hpin (henables w (if_neg hwrote).symm fun k _ => rfl)

end

/-! ## Parts that do not meet -/

/-- The parts share no bit of `INT_PIN_CFG` and no enable. -/
def IntPart.Apart : IntPart → IntPart → Prop
  | .pin field _, .pin field' _ => field.Apart field'
  | .enables _ change, .enables _ change' => ∀ w, change (change' w) = change' (change w)
  | .pin _ _, .enables _ _ | .enables _ _, .pin _ _ => True

theorem IntPart.Apart.comm {p q : IntPart} (h : p.Apart q) (s : IntSettings) :
    p.apply (q.apply s) = q.apply (p.apply s) := by
  cases p with
  | pin field setting =>
    cases q with
    | pin field' setting' =>
      exact congrArg (IntSettings.mk · s.enables) (BitField.set_comm_of_apart _ _ h _ _ _)
    | enables i change => rfl
  | enables i change =>
    cases q with
    | pin field setting => rfl
    | enables k change' => exact congrArg (IntSettings.mk s.pin) (h s.enables)

theorem part_apart {c d : IntCall} (h : ¬ c.SameMethod d) : c.part.Apart d.part := by
  -- two methods for the INT pin have different bits, two for the enables different members
  cases c <;> cases d <;>
    first
    | exact absurd rfl h
    | exact trivial
    | exact fun _ => rfl
    | exact Or.inl (Nat.le_of_ble_eq_true rfl)
    | exact Or.inr (Nat.le_of_ble_eq_true rfl)

theorem apply_apply (c : IntCall) (s : IntSettings) :
    c.part.apply (c.part.apply s) = c.part.apply s := by
  cases c with
  | cfgIntActiveLow _ | cfgIntOpenDrain _ | cfgIntLatch _ | cfgIntAnyReadToClear _
  | cfgFsyncActiveLow _ | cfgFsyncIntMode _ =>
    exact congrArg (IntSettings.mk · s.enables) (BitField.set_set _ _ _)
  | _ => rfl

/-! ## Runs -/

/-- A call of a method, the accesses it made and what it returned. -/
structure IntCalled where
  call : IntCall
  trace : BusTrace RegFile
  retval : Status

/-- One call on any object, whatever of it fails. -/
def intStep (regs : RegFile) (x : IntCalled) (regs' : RegFile) : Prop :=
  ∃ icm icm', Prog.Exec failingDevice (x.call.method.run icm) regs x.trace (x.retval, icm') regs'

/-- The call has written the register of its part. -/
def IntCalled.Reached (x : IntCalled) : Prop := Wrote x.call.part.reg x.trace

instance (x : IntCalled) : Decidable x.Reached := inferInstanceAs (Decidable (Wrote _ _))

/-- What the calls that reached their register make of the settings. -/
def applyReached (s : IntSettings) (x : Step RegFile IntCalled) : IntSettings :=
  if x.label.Reached then x.label.call.part.apply s else s

/-- The registers of the settings. -/
def interruptRegs : List Byte := agb0RegIntPinConfig :: enableRegs

section
variable {x : IntCalled} {regs regs' : RegFile}

theorem intSettings_step (h : intStep regs x regs') :
    intSettings regs' = if x.Reached then x.call.part.apply (intSettings regs)
      else intSettings regs := by
  obtain ⟨icm, icm', hexec⟩ := h
  exact intSettings_written (part_local x.call) (written_method hexec)

theorem mem_writes_reg {c : IntCall} {s : IntSettings} : ∃ b, (c.part.reg, b) ∈ c.part.writes s := by
  cases hpart : c.part with
  | pin field setting => exact ⟨_, List.mem_singleton_self _⟩
  | enables i change => exact ⟨_, mem_enableWrites.mpr ⟨i, rfl⟩⟩

/-- A method that returns `Ok` has reached its register. -/
theorem reached_of_ok (h : intStep regs x regs') (hok : x.retval = Status.ok) : x.Reached := by
  obtain ⟨icm, icm', hexec⟩ := h
  obtain ⟨b, hb⟩ := @mem_writes_reg x.call (intSettings regs)
  exact (written_method hexec).all hok _ hb

theorem writes_interruptRegs {c : IntCall} {s : IntSettings} {w : Byte × Byte}
    (hw : w ∈ c.part.writes s) : w.1 ∈ interruptRegs := by
  cases hpart : c.part with
  | pin field setting =>
    rw [hpart] at hw
    rw [List.mem_singleton.mp hw]
    exact List.mem_cons_self
  | enables i change =>
    rw [hpart] at hw
    obtain ⟨k, rfl⟩ := mem_enableWrites.mp hw
    match k with
    | 0 | 1 | 2 | 3 => simp [interruptRegs, enableRegs, enableReg]

theorem intStep_others (h : intStep regs x regs') {a : BitVec 7}
    (ha : ∀ reg ∈ interruptRegs, a ≠ addr reg) : regs' a = regs a := by
  obtain ⟨icm, icm', hexec⟩ := h
  exact (written_method hexec).others a fun w hw => ha w.1 (writes_interruptRegs hw)

end

/-- Whatever fails, and in whatever order the methods are called: the settings are what the calls
that reached their own register made of them, one after another; a setting that a method has
reported as made stays made until the method is called again; and no other register changes. -/
theorem interrupt_settings_of_run {regs regs' : RegFile} {tr : List (Step RegFile IntCalled)}
    (hrun : Run intStep regs tr regs') :
    intSettings regs' = tr.foldl applyReached (intSettings regs) ∧
    (∀ past x later, tr = past ++ x :: later → x.label.retval = Status.ok →
      (∀ y ∈ later, ¬ x.label.call.SameMethod y.label.call) →
      x.label.call.part.apply (intSettings regs') = intSettings regs') ∧
    ∀ a, (∀ reg ∈ interruptRegs, a ≠ addr reg) → regs' a = regs a := by
  refine ⟨?_, ?_, fun a ha => ?_⟩
  · exact hrun.foldl fun x hx => intSettings_step (hrun.step_mem x hx)
  · rintro past x later rfl hok hlater
    obtain ⟨m, -, hpre, hstep, hrest⟩ := run_append.mp hrun
    let Made (s : RegFile) : Prop := x.label.call.part.apply (intSettings s) = intSettings s
    have hmade : Made x.post := by
      change _ = _
      rw [intSettings_step hstep, if_pos (reached_of_ok hstep hok), apply_apply]
    refine (@Run.invariant _ _ _ Made _ _ _ hrest hmade fun y hy hbefore hystep => ?_).1
    -- a call of another method is for a part apart from this one
    change _ = _
    rw [intSettings_step hystep]
    split
    · rw [(part_apart (hlater y hy)).comm]
      exact congrArg _ hbefore
    · exact hbefore
  · have hinv := @Run.invariant _ _ _ (fun s => s a = regs a) _ _ _ hrun rfl
      fun x _ hbefore hstep => (intStep_others hstep ha).trans hbefore
    exact hinv.1

theorem failingDevice_registersExcept (reg : Byte) (regs : RegFile) (e : BusEvent) (r : e.Resp)
    (regs' : RegFile) (h : (registersExcept reg).env regs e r regs') :
    failingDevice regs e r regs' := by
  have hflat (hres : registersExcept reg e regs = registers e regs) :
      failingDevice regs e r regs' := by
    obtain ⟨rfl, rfl⟩ := Handler.answer_eq h
    rw [hres]
    obtain ⟨hgood, haccess⟩ := flatDevice_registers regs e
    exact (if_pos hgood).mpr haccess
  cases e with
  | write r' data =>
    by_cases hreg : r' = reg
    · obtain ⟨hr, hregs⟩ := Handler.answer_eq h
      have herr : registersExcept reg (.write r' data) regs = (Status.err, regs) := if_pos hreg
      rw [herr] at hr hregs
      have hbad : ¬ Good (.write r' data) r := by
        rw [hr]
        exact show ¬ Status.err = Status.ok by decide
      exact (if_neg hbad).mpr hregs
    · exact hflat (if_neg hreg)
  | _ => exact hflat rfl

/-- A call on such registers, of an object in static storage. -/
def intCalledExcept (reg : Byte) (call : IntCall) (regs : RegFile) : Step RegFile IntCalled :=
  let p := call.method.run staticObject
  ⟨regs, ⟨call, Prog.trace (registersExcept reg) p regs, (Prog.run (registersExcept reg) p regs).1.1⟩,
    (Prog.run (registersExcept reg) p regs).2⟩

theorem intStep_intCalledExcept (reg : Byte) (call : IntCall) (regs : RegFile) :
    intStep regs (intCalledExcept reg call regs).label (intCalledExcept reg call regs).post :=
  ⟨staticObject, _, (Prog.exec_run_pair (registersExcept reg) _ regs).mono
    (failingDevice_registersExcept reg)⟩

/-- The pin is latched; then the DMP's enable cannot write the overflow enables, and reports an
error, but has been made. -/
theorem interrupt_settings_of_run_two :
    let regs : RegFile := fun _ => 0
    let x := intCalledExcept agb0RegIntEnable2 (.cfgIntLatch true) regs
    let y := intCalledExcept agb0RegIntEnable2 (.intEnableDmp true) x.post
    (intSettings y.post).pin = 0x20 ∧ (intSettings y.post).enables.dmpInt1En = true := by
  intro regs x y
  have hrun : Run intStep regs [x, y] y.post :=
    ⟨rfl, intStep_intCalledExcept _ _ _, rfl, intStep_intCalledExcept _ _ _, rfl⟩
  obtain ⟨hsettings, -⟩ := interrupt_settings_of_run hrun
  rw [hsettings]
  decide

end SimuSound.Imu
