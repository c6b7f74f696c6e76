import SimuSound.Imu.StatusSoundness

/-!
# Periph4Polling — when the transaction of peripheral 4 gives up

The polling loop counts its turns, and the test after it takes a count of `max_cycles` for a failure
also when the last poll found the transaction done.  What the polls answered is read off the bus.
-/

namespace SimuSound.Imu

open Reasoning

section
variable {σ : Type}

/-- The statuses that at most `n` polls for one byte found, and what follows them on the bus. -/
def polls : Nat → BusTrace σ → List Byte × BusTrace σ
  | n + 1, ⟨_, .read _ 1, r⟩ :: tr =>
    if flag I2cMstStatus.i2cPeriph4Done (r.val 0) then ([r.val 0], tr)
    else (r.val 0 :: (polls n tr).1, (polls n tr).2)
  | _, tr => ([], tr)

/-- The accesses that start the transaction of one byte. -/
def kickOffLength (rw : Bool) : Nat := if rw then 1 else 2

/-- The statuses found for each of at most `n` bytes whose transaction was started. -/
def attempts (rw : Bool) : Nat → BusTrace σ → List (List Byte)
  | _, [] | 0, _ => []
  | n + 1, o :: tr =>
    let found := polls (maxCycles + 1) ((o :: tr).drop (kickOffLength rw))
    found.1 :: attempts rw n (if rw then found.2.tail else found.2)

/-- The last poll found `DONE` and no `NACK`. -/
def SeenDone (statuses : List Byte) : Prop :=
  ∃ last ∈ statuses.getLast?, flag I2cMstStatus.i2cPeriph4Done last = true ∧
    flag I2cMstStatus.i2cPeriph4Nack last = false

/-- The last poll found `NACK`, or the limit was exhausted without `DONE`. -/
def ReallyFailed (statuses : List Byte) : Prop :=
  ∃ last ∈ statuses.getLast?, flag I2cMstStatus.i2cPeriph4Nack last = true ∨
    flag I2cMstStatus.i2cPeriph4Done last = false ∧ maxCycles ≤ statuses.length

/-- A byte seen done is counted as transferred, so that the next one follows or the function returns
`Ok`; and it returns `Err` only if some byte really failed. -/
def ReportsRealFailures (tried : List (List Byte)) (retval : Status) : Prop :=
  (∀ i (hi : i < tried.length), SeenDone tried[i] → i + 1 < tried.length ∨ retval = Status.ok) ∧
    (retval = Status.err → ∃ statuses ∈ tried, ReallyFailed statuses)

instance : DecidablePred SeenDone := fun statuses =>
  inferInstanceAs (Decidable (∃ last ∈ statuses.getLast?, _ ∧ _))

instance : DecidablePred ReallyFailed := fun statuses =>
  inferInstanceAs (Decidable (∃ last ∈ statuses.getLast?, _ ∨ _))

/-- What the function takes for a transferred byte. -/
def Passed (statuses : List Byte) : Prop := SeenDone statuses ∧ statuses.length < maxCycles

end

section
variable {σ : Type} {env : Env σ BusEvent BusEvent.Resp} {s s' : σ} {tr : BusTrace σ}

/-- The loop polls until `DONE`, and `count` is the number of polls. -/
theorem exec_polls {left : Nat} {i2cMstStatus : Byte} {poll : Poll} (hleft : left ≤ maxCycles)
    (hexec : Prog.Exec env (pollPeriph4 left i2cMstStatus) s tr poll s') (hok : AllOk tr)
    (rest : BusTrace σ) :
    ∃ statuses, polls (left + 1) (tr ++ rest) = (statuses, rest) ∧
      statuses.getLast? = some poll.i2cMstStatus ∧ poll.retval = Status.ok ∧
      poll.count + left = maxCycles + statuses.length ∧
      (flag I2cMstStatus.i2cPeriph4Done poll.i2cMstStatus = false →
        poll.count = maxCycles + 1) := by
  -- on the polls that are left after this one
  induction left generalizing i2cMstStatus s tr with
  | zero =>
    change Prog.Exec env (readByte _ _ >>= _) _ _ _ _ at hexec
    obtain ⟨r, s₁, t₁, t₂, rfl, hread, hret⟩ := (Prog.exec_bind _ _ _ _ _ _ _).mp hexec
    obtain ⟨answer, rfl, rfl⟩ := exec_readByte hread
    obtain ⟨rfl, rfl, -⟩ := hret
    have hgood : answer.retval = Status.ok := hok _ List.mem_cons_self
    have hpolled : polled i2cMstStatus answer = answer.val 0 := if_pos hgood
    refine ⟨[answer.val 0], ?_, congrArg some hpolled.symm, hgood, rfl, fun _ => rfl⟩
    simp [polls]
  | succ left ih =>
    change Prog.Exec env (readByte _ _ >>= _) _ _ _ _ at hexec
    obtain ⟨r, s₁, t₁, t₂, rfl, hread, hnext⟩ := (Prog.exec_bind _ _ _ _ _ _ _).mp hexec
    obtain ⟨answer, rfl, rfl⟩ := exec_readByte hread
    have hgood : answer.retval = Status.ok := hok _ List.mem_cons_self
    have hpolled : polled i2cMstStatus answer = answer.val 0 := if_pos hgood
    simp only [hpolled] at hnext
    by_cases hdone : flag I2cMstStatus.i2cPeriph4Done (answer.val 0) = true
    · -- the loop ends here, and `count` is the number of turns taken
      rw [if_pos hdone] at hnext
      obtain ⟨rfl, rfl, -⟩ := hnext
      refine ⟨[answer.val 0], ?_, rfl, hgood, ?_, fun h => ?_⟩
      · simp [polls, hdone]
      · show maxCycles - left + (left + 1) = maxCycles + 1
        omega
      · exact absurd (h.symm.trans hdone) (by decide)
    · rw [if_neg hdone] at hnext
      obtain ⟨statuses, hpolls, hlast, hret, hcount, hlimit⟩ := ih (by omega) hnext
        ((allOk_append _ _).mp hok).2
      refine ⟨answer.val 0 :: statuses, ?_, ?_, hret, ?_, hlimit⟩
      · simp [polls, hdone, hpolls]
      · rw [List.getLast?_cons, hlast]
        rfl
      · rw [List.length_cons]
        omega

/-- A byte is taken for transferred when it was seen done before the `max_cycles`-th poll. -/
theorem passed_iff_txnFailed {statuses : List Byte} {poll : Poll}
    (hlast : statuses.getLast? = some poll.i2cMstStatus) (hcount : poll.count = statuses.length)
    (hlimit : flag I2cMstStatus.i2cPeriph4Done poll.i2cMstStatus = false →
      poll.count = maxCycles + 1) :
    (Passed statuses ↔ poll.txnFailed = false) ∧
      (¬ SeenDone statuses → ReallyFailed statuses) := by
  have hseen : SeenDone statuses ↔
      flag I2cMstStatus.i2cPeriph4Done poll.i2cMstStatus = true ∧
        flag I2cMstStatus.i2cPeriph4Nack poll.i2cMstStatus = false := by
    simp [SeenDone, hlast]
  constructor
  · rw [Poll.txnFailed_eq_false, Passed, hseen, ← hcount]
    constructor
    · exact fun h => ⟨h.1.2, h.2⟩
    · intro h
      -- a poll without `DONE` would have been followed by another one
      refine ⟨⟨?_, h.1⟩, h.2⟩
      cases hdone : flag I2cMstStatus.i2cPeriph4Done poll.i2cMstStatus with
      | true => rfl
      | false => have := hlimit hdone; omega
  · rw [hseen]
    intro hnot
    refine ⟨poll.i2cMstStatus, hlast, ?_⟩
    cases hnack : flag I2cMstStatus.i2cPeriph4Nack poll.i2cMstStatus with
    | true => exact Or.inl rfl
    | false =>
      have hdone : flag I2cMstStatus.i2cPeriph4Done poll.i2cMstStatus = false :=
        Bool.eq_false_iff.mpr fun h => hnot ⟨h, hnack⟩
      have hall := hlimit hdone
      exact Or.inr ⟨hdone, by omega⟩

theorem exec_kickOff_allOk {rw : Bool} {ctrl b : Byte} {retval : Status}
    (hexec : Prog.Exec env (kickOff rw ctrl b) s tr retval s') (hok : AllOk tr) :
    retval = Status.ok ∧ tr.length = kickOffLength rw := by
  cases rw with
  | true =>
    obtain rfl := exec_executeW hexec
    exact ⟨hok _ List.mem_cons_self, rfl⟩
  | false =>
    obtain ⟨r₁, s₁, t₁, t₂, rfl, hdo, hexec₁⟩ := exec_guard.mp hexec
    obtain rfl := exec_executeW hdo
    have hr₁ : r₁ = Status.ok := hok _ List.mem_cons_self
    rw [if_pos hr₁] at hexec₁
    obtain rfl := exec_executeW hexec₁
    exact ⟨((allOk_append _ _).mp hok).2 _ List.mem_cons_self, rfl⟩

theorem exec_fetchByte_allOk {rw : Bool} {b : Byte} {retval : Status} {r : Read Byte}
    (hretval : retval = Status.ok) (hexec : Prog.Exec env (fetchByte rw b retval) s tr r s')
    (hok : AllOk tr) : r.retval = Status.ok := by
  cases rw with
  | true =>
    obtain ⟨answer, rfl, rfl⟩ := exec_readByte hexec
    exact hok _ List.mem_cons_self
  | false =>
    obtain ⟨-, rfl, -⟩ := hexec
    exact hretval

/-- The statuses found for one byte, when its transaction was started. -/
theorem attempts_cons {rw : Bool} {n : Nat} {kick tr rest : BusTrace σ} {statuses : List Byte}
    (hkick : kick.length = kickOffLength rw)
    (hpolls : polls (maxCycles + 1) tr = (statuses, rest)) :
    attempts rw (n + 1) (kick ++ tr) =
      statuses :: attempts rw n (if rw then rest.tail else rest) := by
  cases kick with
  | nil =>
    have hpos : 0 < kickOffLength rw := by
      unfold kickOffLength
      split
      · exact Nat.one_pos
      · exact Nat.two_pos
    rw [← hkick] at hpos
    exact absurd hpos (Nat.lt_irrefl 0)
  | cons o kick =>
    have hdrop : (o :: (kick ++ tr)).drop (kickOffLength rw) = tr := List.drop_left' hkick
    simp only [List.cons_append, attempts, hdrop, hpolls]

/-- How the loop over the bytes can end when no access fails. -/
theorem exec_attempts {rw : Bool} {ctrl : Byte} {data : List Byte} {i2cMstStatus : Byte}
    {retval : Status} {r : Read (List Byte)}
    (hexec : Prog.Exec env (periph4Bytes rw ctrl data i2cMstStatus retval) s tr r s')
    (hok : AllOk tr) (hretval : retval = Status.ok) :
    (r.retval = Status.ok ∧ ∀ statuses ∈ attempts rw data.length tr, Passed statuses) ∨
      (r.retval = Status.err ∧ ∃ before last, attempts rw data.length tr = before ++ [last] ∧
        (∀ statuses ∈ before, Passed statuses) ∧ ¬ Passed last ∧
        (¬ SeenDone last → ReallyFailed last)) := by
  -- on the bytes: each of them passes, or it is the last one that is tried
  induction data generalizing i2cMstStatus retval s tr r with
  | nil =>
    obtain ⟨rfl, rfl, -⟩ := hexec
    exact Or.inl ⟨hretval, List.forall_mem_nil _⟩
  | cons b data ih =>
    rw [periph4Bytes] at hexec
    obtain ⟨rk, s₁, t₁, t₂, rfl, hkick, hexec₁⟩ := exec_guard.mp hexec
    obtain ⟨hok₁, hok₂⟩ := (allOk_append _ _).mp hok
    obtain ⟨hrk, hlength⟩ := exec_kickOff_allOk hkick hok₁
    rw [if_pos hrk] at hexec₁
    obtain ⟨poll, s₂, tp, t₃, rfl, hpoll, hexec₂⟩ := (Prog.exec_bind _ _ _ _ _ _ _).mp hexec₁
    obtain ⟨hokp, hok₃⟩ := (allOk_append _ _).mp hok₂
    obtain ⟨statuses, hpolls, hlast, hpollOk, hcount, hlimit⟩ :=
      exec_polls (Nat.le_refl _) hpoll hokp t₃
    obtain ⟨hpassed, hreally⟩ := passed_iff_txnFailed hlast (by omega) hlimit
    rw [List.length_cons, attempts_cons hlength hpolls]
    cases hfailed : poll.txnFailed with
    | true =>
      rw [hfailed, if_pos rfl] at hexec₂
      obtain ⟨rfl, rfl, -⟩ := hexec₂
      refine Or.inr ⟨rfl, [], statuses, ?_, List.forall_mem_nil _, ?_, hreally⟩
      · cases rw
        · simp [attempts]
        · simp [attempts]
      · rw [hpassed, hfailed]
        decide
    | false =>
      rw [hfailed, if_neg Bool.false_ne_true] at hexec₂
      obtain ⟨byte, s₃, tf, t₄, rfl, hfetch, hexec₃⟩ := (Prog.exec_bind _ _ _ _ _ _ _).mp hexec₂
      obtain ⟨rest, s₄, tb, t₅, rfl, hrest, hret⟩ := (Prog.exec_bind _ _ _ _ _ _ _).mp hexec₃
      obtain ⟨rfl, rfl, rfl⟩ := hret
      obtain ⟨hokf, hokb⟩ := (allOk_append _ _).mp hok₃
      rw [List.append_nil] at hokb
      obtain ⟨htail, -⟩ := exec_fetchByte hfetch (tb ++ [])
      have hbyte : byte.retval = Status.ok := exec_fetchByte_allOk hpollOk hfetch hokf
      rw [htail, List.append_nil]
      have hthis : Passed statuses := hpassed.mpr hfailed
      obtain ⟨hrok, hall⟩ | ⟨herr, before, last, hattempts, hbefore, hnot, hreal⟩ :=
        ih hrest hokb hbyte
      · exact Or.inl ⟨hrok, List.forall_mem_cons.mpr ⟨hthis, hall⟩⟩
      · refine Or.inr ⟨herr, statuses :: before, last, ?_, ?_, hnot, hreal⟩
        · rw [hattempts]
          rfl
        · exact List.forall_mem_cons.mpr ⟨hthis, hbefore⟩

/-- The failures reported are real ones, exactly if no byte's polls first find `DONE`, without
`NACK`, when `count` has reached `max_cycles`. -/
theorem periph4_reports_real_failures_iff {addr reg : Byte} {data : List Byte}
    {rw sendRegAddr : Bool} {r : Read (List Byte)}
    (hexec : Prog.Exec env (i2cControllerPeriph4Txn addr reg data rw sendRegAddr) s tr r s')
    (hok : AllOk tr) :
    ReportsRealFailures (attempts rw data.length (tr.drop 4)) r.retval ↔
      ∀ statuses ∈ attempts rw data.length (tr.drop 4),
        SeenDone statuses → statuses.length < maxCycles := by
  -- the address, the register and the two locals come first
  obtain ⟨r₁, s₁, t₁, t₂, rfl, haddr, hexec₁⟩ := exec_guard.mp hexec
  obtain rfl := exec_executeW haddr
  have hr₁ : r₁ = Status.ok := hok _ List.mem_cons_self
  rw [if_pos hr₁] at hexec₁
  obtain ⟨r₂, s₂, t₂, t₃, rfl, hreg, hexec₂⟩ := exec_guard.mp hexec₁
  obtain rfl := exec_executeW hreg
  have hr₂ : r₂ = Status.ok := hok _ (List.mem_cons_of_mem _ List.mem_cons_self)
  rw [if_pos hr₂] at hexec₂
  obtain ⟨ctrl, s₃, t₃, -, rfl, i2cMstStatus, s₄, body, -, rfl, hbytes⟩ := hexec₂
  have hokBody : AllOk body := fun o ho => hok o (by simp [ho])
  show ReportsRealFailures (attempts rw data.length body) r.retval ↔
    ∀ statuses ∈ attempts rw data.length body, SeenDone statuses → statuses.length < maxCycles
  obtain ⟨hret, hall⟩ | ⟨hret, before, last, hattempts, hbefore, hnot, hreal⟩ :=
    exec_attempts hbytes hokBody hr₂
  · apply iff_of_true
    · exact ⟨fun _ _ _ => Or.inr hret, fun herr => absurd (hret.symm.trans herr) (by decide)⟩
    · exact fun statuses hmem _ => (hall statuses hmem).2
  · rw [hattempts, hret]
    constructor
    · intro h statuses hmem hseen
      rcases List.mem_append.mp hmem with hmem | hmem
      · exact (hbefore statuses hmem).2
      · -- the last byte tried was not counted
        obtain rfl := List.mem_singleton.mp hmem
        have hi : before.length < (before ++ [statuses]).length := by simp
        have hlast : SeenDone (before ++ [statuses])[before.length] := by simpa
        rcases h.1 before.length hi hlast with hlt | herr
        · simp at hlt
        · exact absurd herr (by decide)
    · intro h
      have hunseen : ¬ SeenDone last := fun hseen =>
        hnot ⟨hseen, h last (by simp) hseen⟩
      refine ⟨fun i hi hseen => Or.inl ?_, fun _ => ⟨last, by simp, hreal hunseen⟩⟩
      rw [List.length_append, List.length_singleton] at hi ⊢
      have hne : i ≠ before.length := by
        rintro rfl
        exact hunseen (by simpa using hseen)
      omega

end

/-- A device on which every third poll of peripheral 4 finds the transaction done, without `NACK`. -/
def doneEveryThird : Handler Nat BusEvent BusEvent.Resp
  | .read _ _, polls => (⟨Status.ok, fun _ => if polls % 3 = 2 then 0x40 else 0⟩, polls + 1)
  | .write _ _, polls => (Status.ok, polls)
  | .uninit _, polls => (fun _ => 0, polls)
  | .spiOpen _ _, polls => ((0 : Int), polls)

/-- Two bytes are written from `CNTL2` of the magnetometer on. -/
def writeCntl : Io (Read (List Byte)) := i2cControllerPeriph4Txn 0x0C 0x31 [8, 1] false true

theorem periph4_reports_real_failures_iff_twoBytes :
    let tried := attempts false 2 ((Prog.trace doneEveryThird writeCntl 0).drop 4)
    let retval := (Prog.run doneEveryThird writeCntl 0).1.retval
    tried = [[0, 0, 0x40], [0, 0, 0x40]] ∧ retval = Status.ok ∧ ReportsRealFailures tried retval := by
  have htried : attempts false 2 ((Prog.trace doneEveryThird writeCntl 0).drop 4) =
      [[0, 0, 0x40], [0, 0, 0x40]] := by decide
  have hok : AllOk (Prog.trace doneEveryThird writeCntl 0) := by decide
  have hiff := periph4_reports_real_failures_iff (Prog.exec_run doneEveryThird writeCntl 0) hok
  refine ⟨htried, by decide, hiff.mpr ?_⟩
  show ∀ statuses ∈ attempts false 2 ((Prog.trace doneEveryThird writeCntl 0).drop 4), _
  rw [htried]
  decide

/-- A device whose transaction of peripheral 4 is done at the `n`-th poll, without `NACK`. -/
def doneAtPoll (n : Nat) : Handler Nat BusEvent BusEvent.Resp
  | .read _ _, polls => (⟨Status.ok, fun _ => if polls + 1 = n then 0x40 else 0⟩, polls + 1)
  | .write _ _, polls => (Status.ok, polls)
  | .uninit _, polls => (fun _ => 0, polls)
  | .spiOpen _ _, polls => ((0 : Int), polls)

/-- The register `WIA2` of the magnetometer is read. -/
def readWia2 : Io (Read (List Byte)) := i2cControllerPeriph4Txn 0x0C 0x01 [0] true true

/-- The byte is done at the 1000th poll, and the function returns `Err`. -/
theorem done_at_thousandth_poll_fails :
    ¬ ∀ (σ : Type) (env : Env σ BusEvent BusEvent.Resp) (addr reg : Byte) (data : List Byte)
      (rw sendRegAddr : Bool) (s s' : σ) (tr : BusTrace σ) (r : Read (List Byte)),
      Prog.Exec env (i2cControllerPeriph4Txn addr reg data rw sendRegAddr) s tr r s' → AllOk tr →
        ReportsRealFailures (attempts rw data.length (tr.drop 4)) r.retval := by
  intro hall
  have hreports := hall Nat (doneAtPoll maxCycles).env _ _ _ _ _ _ _ _ _
    (Prog.exec_run (doneAtPoll maxCycles) readWia2 0) (by decide +kernel)
  have herr : (Prog.run (doneAtPoll maxCycles) readWia2 0).1.retval = Status.err := by
    decide +kernel
  obtain ⟨statuses, hmem, hreal⟩ := hreports.2 herr
  revert hreal
  revert statuses
  decide +kernel

end SimuSound.Imu
