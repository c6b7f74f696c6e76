import SimuSound.Imu.StatusMember

/-!
# MagStartup — the attempts to start the magnetometer

`startupMagnetometer` decides by its counter whether the magnetometer answered.  The attempts are
logged here beside the accesses that make them, and the log is compared with the verdict.
-/

namespace SimuSound.Imu.Icm20948

open Reasoning

/-- What the loop of `startupMagnetometer` calls, with what `magWhoIAm` returned. -/
inductive MagStep
  | whoIAm (retval : Status)
  | masterReset
  deriving DecidableEq

/-- `magStarts` with a log of its calls. -/
def magSteps : Nat → Method (List MagStep)
  | 0 => pure []
  | left + 1 => do
    let retval ← magWhoIAm
    if retval = Status.ok then
      return [.whoIAm retval]
    else
      let _ ← i2cMasterReset
      let steps ← magSteps left
      return .whoIAm retval :: .masterReset :: steps

/-- What the attempts found. -/
def attempts (steps : List MagStep) : List Status :=
  steps.filterMap fun
    | .whoIAm retval => some retval
    | .masterReset => none

/-- `startupMagnetometer(true)` with a log of its attempts. -/
def startupLogged : Method (Status × List MagStep) := do
  let _ ← i2cMasterPassthrough false
  let _ ← i2cMasterEnable true
  let _ ← resetMag
  let steps ← magSteps maxMagnetometerStarts
  if (attempts steps).length = maxMagnetometerStarts then
    return (← report Status.wrongID, steps)
  return ((← get).status, steps)

/-- `WrongID` only when all attempts failed, and nothing is tried after an attempt that found the
magnetometer. -/
def Verdict (retval : Status) (steps : List MagStep) : Prop :=
  (retval = Status.wrongID → (attempts steps).length = maxMagnetometerStarts ∧
      ∀ found ∈ attempts steps, found ≠ Status.ok) ∧
    ∀ before after, steps = before ++ .whoIAm Status.ok :: after →
      retval = Status.ok ∧ after = []

/-- The last attempt that `MAX_MAGNETOMETER_STARTS` permits fails, if it comes to it. -/
def LastPermittedFails (steps : List MagStep) : Prop :=
  ∀ found ∈ (attempts steps)[maxMagnetometerStarts - 1]?, found ≠ Status.ok

/-! ## The log is one of the same calls -/

theorem magStarts_eq_magSteps {left : Nat} (hleft : left ≤ maxMagnetometerStarts) :
    magStarts left = (fun steps => maxMagnetometerStarts - left + (attempts steps).length) <$>
      magSteps left := by
  induction left with
  | zero => rfl
  | succ left ih =>
    have hmore (retval : Status) (steps : List MagStep) :
        maxMagnetometerStarts - (left + 1) +
            (attempts (.whoIAm retval :: .masterReset :: steps)).length =
          maxMagnetometerStarts - left + (attempts steps).length := by
      show _ + ((attempts steps).length + 1) = _
      omega
    have hone (retval : Status) :
        maxMagnetometerStarts - (left + 1) + (attempts [.whoIAm retval]).length =
          maxMagnetometerStarts - left := by
      show _ + 1 = _
      omega
    rw [magStarts, magSteps, map_bind]
    apply bind_congr
    intro retval
    split
    · rw [map_pure, hone]
    · rw [map_bind, ih (by omega)]
      simp only [bind_pure_comp, Functor.map_map, hmore]

theorem startupMagnetometer_eq_logged :
    startupMagnetometer true = Prod.fst <$> startupLogged := by
  unfold startupMagnetometer startupLogged
  simp only [magStarts_eq_magSteps (Nat.le_refl _), Nat.sub_self, Nat.zero_add,
    map_eq_pure_bind, bind_assoc, pure_bind]
  apply bind_congr; intro _
  apply bind_congr; intro _
  apply bind_congr; intro _
  apply bind_congr; intro steps
  split
  · simp only [bind_assoc, pure_bind, bind_pure]
  · rw [if_pos trivial]
    simp only [bind_assoc, pure_bind]

/-! ## How the loop can end -/

/-- The logs of the loop with `left` tries, and the status that the object is left with. -/
inductive Outcome : Nat → List MagStep → Status → Prop
  | exhausted (status : Status) : Outcome 0 [] status
  | found (left : Nat) : Outcome (left + 1) [.whoIAm Status.ok] Status.ok
  | retry {left : Nat} {retval status : Status} {steps : List MagStep}
      (hfailed : retval ≠ Status.ok) (hrest : Outcome left steps status) :
      Outcome (left + 1) (.whoIAm retval :: .masterReset :: steps) status

theorem ends_magSteps (left : Nat) (icm : Icm20948) :
    Prog.Ends (fun r : List MagStep × Icm20948 => Outcome left r.1 r.2.status)
      ((magSteps left).run icm) := by
  induction left generalizing icm with
  | zero => exact .exhausted icm.status
  | succ left ih =>
    rw [magSteps, StateT.run_bind, Prog.ends_bind]
    apply (agrees_magWhoIAm icm).mono
    intro r hstatus
    by_cases hok : r.1 = Status.ok
    · -- `magWhoIAm` leaves what it returns in `status`
      have hstatus : r.2.status = Status.ok := hstatus Status.ok (congrArg some hok)
      show Prog.Ends _ (StateT.run (if r.1 = Status.ok then _ else _) r.2)
      rw [if_pos hok, hok]
      show Outcome (left + 1) [.whoIAm Status.ok] r.2.status
      rw [hstatus]
      exact .found left
    · show Prog.Ends _ (StateT.run (if r.1 = Status.ok then _ else _) r.2)
      rw [if_neg hok, StateT.run_bind, Prog.ends_bind]
      apply Prog.ends_of_forall
      intro reset
      rw [StateT.run_bind, Prog.ends_bind]
      exact (ih reset.2).mono fun steps houtcome => .retry hok houtcome

/-- Either all attempts failed, or the last one was the first to succeed. -/
theorem Outcome.failed_or_found {left : Nat} {steps : List MagStep} {status : Status}
    (h : Outcome left steps status) :
    ((∀ found ∈ attempts steps, found ≠ Status.ok) ∧ (attempts steps).length = left) ∨
      (status = Status.ok ∧ ∃ before, steps = before ++ [.whoIAm Status.ok] ∧
        (∀ found ∈ attempts before, found ≠ Status.ok) ∧ (attempts before).length < left) := by
  induction h with
  | exhausted status => exact Or.inl ⟨List.forall_mem_nil _, rfl⟩
  | found left => exact Or.inr ⟨rfl, [], rfl, List.forall_mem_nil _, Nat.succ_pos left⟩
  | @retry left retval status steps hfailed _ ih =>
    have hattempts (steps : List MagStep) :
        attempts (.whoIAm retval :: .masterReset :: steps) = retval :: attempts steps := rfl
    rcases ih with ⟨hall, hlength⟩ | ⟨hstatus, before, rfl, hall, hlength⟩
    · apply Or.inl
      rw [hattempts]
      exact ⟨List.forall_mem_cons.mpr ⟨hfailed, hall⟩, congrArg (· + 1) hlength⟩
    · refine Or.inr ⟨hstatus, .whoIAm retval :: .masterReset :: before, rfl, ?_, ?_⟩
      · rw [hattempts]
        exact List.forall_mem_cons.mpr ⟨hfailed, hall⟩
      · rw [hattempts, List.length_cons]
        omega

theorem mem_attempts {steps : List MagStep} {found : Status} :
    found ∈ attempts steps ↔ .whoIAm found ∈ steps := by
  unfold attempts
  rw [List.mem_filterMap]
  constructor
  · rintro ⟨step, hmem, hstep⟩
    cases step with
    | whoIAm retval =>
      obtain rfl := Option.some.inj hstep
      exact hmem
    | masterReset => cases hstep
  · exact fun hmem => ⟨.whoIAm found, hmem, rfl⟩

theorem attempts_concat (before : List MagStep) (found : Status) :
    attempts (before ++ [.whoIAm found]) = attempts before ++ [found] := by
  unfold attempts
  rw [List.filterMap_append]
  rfl

/-- The verdict is that of the counter after the loop. -/
theorem Outcome.verdict_iff {steps : List MagStep} {status : Status}
    (h : Outcome maxMagnetometerStarts steps status) :
    Verdict (if (attempts steps).length = maxMagnetometerStarts then Status.wrongID else status)
      steps ↔ LastPermittedFails steps := by
  rcases h.failed_or_found with ⟨hall, hlength⟩ | ⟨rfl, before, rfl, hall, hlength⟩
  · rw [if_pos hlength]
    apply iff_of_true
    · refine ⟨fun _ => ⟨hlength, hall⟩, fun before after hsteps => ?_⟩
      exact absurd rfl (hall Status.ok (mem_attempts.mpr (by simp [hsteps])))
    · exact fun found hfound => hall found (List.mem_of_getElem? hfound)
  · rw [LastPermittedFails, attempts_concat, List.length_append, List.length_singleton]
    by_cases hlast : (attempts before).length + 1 = maxMagnetometerStarts
    · -- the last permitted attempt found it
      rw [if_pos hlast]
      apply iff_of_false
      · exact fun hverdict => absurd (hverdict.2 before [] rfl).1 (by decide)
      · intro hfails
        apply hfails Status.ok ?_ rfl
        rw [← hlast, Nat.add_sub_cancel, List.getElem?_concat_length]
        rfl
    · rw [if_neg hlast]
      apply iff_of_true
      · refine ⟨fun hwrong => absurd hwrong (by decide), fun first after hsteps => ⟨rfl, ?_⟩⟩
        -- a call after a successful attempt would put that attempt among the failed ones
        rcases List.eq_nil_or_concat after with rfl | ⟨after, step, rfl⟩
        · rfl
        · rw [List.concat_eq_append, ← List.cons_append, ← List.append_assoc] at hsteps
          obtain rfl := List.append_inj_left' hsteps rfl
          exact absurd rfl (hall Status.ok (mem_attempts.mpr (by simp)))
      · intro found hfound
        rw [List.getElem?_eq_none] at hfound
        · cases hfound
        · rw [List.length_append, List.length_singleton]
          omega

/-! ## The verdict -/

section
variable {σ : Type} {env : Env σ BusEvent BusEvent.Resp} {icm icm' : Icm20948} {s s' : σ}
  {tr : BusTrace σ}

theorem exec_startupLogged {retval : Status} {steps : List MagStep}
    (hexec : Prog.Exec env (startupLogged.run icm) s tr ((retval, steps), icm') s') :
    ∃ status, Outcome maxMagnetometerStarts steps status ∧
      retval = if (attempts steps).length = maxMagnetometerStarts then Status.wrongID
        else status := by
  unfold startupLogged at hexec
  -- the results of the three calls before the loop are not looked at
  obtain ⟨_, icm₁, s₁, t₁, t₂, -, -, hexec₁⟩ := Prog.exec_bindM.mp hexec
  obtain ⟨_, icm₂, s₂, t₃, t₄, -, -, hexec₂⟩ := Prog.exec_bindM.mp hexec₁
  obtain ⟨_, icm₃, s₃, t₅, t₆, -, -, hexec₃⟩ := Prog.exec_bindM.mp hexec₂
  obtain ⟨steps', icm₄, s₄, t₇, t₈, -, hsteps, hexec₄⟩ := Prog.exec_bindM.mp hexec₃
  have houtcome : Outcome maxMagnetometerStarts steps' icm₄.status :=
    (ends_magSteps maxMagnetometerStarts icm₃).exec hsteps
  split at hexec₄
  · rename_i hlength
    obtain ⟨-, hpair, -⟩ := hexec₄
    obtain ⟨hret, -⟩ := Prod.mk.inj hpair
    obtain ⟨rfl, rfl⟩ := Prod.mk.inj hret
    exact ⟨icm₄.status, houtcome, (if_pos hlength).symm⟩
  · rename_i hlength
    obtain ⟨-, hpair, -⟩ := hexec₄
    obtain ⟨hret, -⟩ := Prod.mk.inj hpair
    obtain ⟨rfl, rfl⟩ := Prod.mk.inj hret
    exact ⟨icm₄.status, houtcome, (if_neg hlength).symm⟩

/-- Every run of `startupMagnetometer(true)` has a log, and its verdict is right exactly if the last
permitted attempt fails when it is made. -/
theorem startup_verdict_iff {retval : Status}
    (hexec : Prog.Exec env ((startupMagnetometer true).run icm) s tr (retval, icm') s') :
    ∃ steps, Prog.Exec env (startupLogged.run icm) s tr ((retval, steps), icm') s' ∧
      (Verdict retval steps ↔ LastPermittedFails steps) := by
  rw [startupMagnetometer_eq_logged] at hexec
  obtain ⟨⟨retval', steps⟩, rfl, hlogged⟩ := Prog.exec_map.mp hexec
  obtain ⟨status, houtcome, hret⟩ := exec_startupLogged hlogged
  refine ⟨steps, hlogged, ?_⟩
  show Verdict retval' steps ↔ _
  rw [hret]
  exact houtcome.verdict_iff

end

/-- The next so many writes to `I2C_PERIPH4_ADDR` fail, and the reads of `I2C_MST_STATUS` are
answered in turn; without banks that is also the address of `I2C_PERIPH4_DI`. -/
def deafAtFirst : Handler (Nat × List Byte) BusEvent BusEvent.Resp
  | .read reg _, s =>
    if reg = agb0RegI2cMstStatus then (⟨Status.ok, fun _ => s.2.headD 0⟩, (s.1, s.2.tail))
    else (⟨Status.ok, fun _ => 0⟩, s)
  | .write reg _, s =>
    if reg = agb3RegI2cPeriph4Addr ∧ s.1 ≠ 0 then (Status.err, (s.1 - 1, s.2))
    else (Status.ok, s)
  | .uninit _, s => (fun _ => 0, s)
  | .spiOpen _ _, s => ((0 : Int), s)

/-- `resetMag` and `failed` attempts get no transaction started, and then the identifier is read. -/
def foundAfter (failed : Nat) : Nat × List Byte :=
  (failed + 1, [0x40, hiByte magWhoAmI, 0x40, loByte magWhoAmI])

/-- Such a log. -/
def secondAttempt : List MagStep := [.whoIAm Status.err, .masterReset, .whoIAm Status.ok]

theorem startup_verdict_iff_second_attempt :
    ∃ tr icm' s', Prog.Exec deafAtFirst.env ((startupMagnetometer true).run staticObject)
        (foundAfter 1) tr (Status.ok, icm') s' ∧
      Prog.Exec deafAtFirst.env (startupLogged.run staticObject) (foundAfter 1) tr
        ((Status.ok, secondAttempt), icm') s' ∧ Verdict Status.ok secondAttempt := by
  have hexec := Prog.exec_run_pair deafAtFirst ((startupMagnetometer true).run staticObject)
    (foundAfter 1)
  have hret : (Prog.run deafAtFirst ((startupMagnetometer true).run staticObject)
    (foundAfter 1)).1.1 = Status.ok := by decide +kernel
  rw [hret] at hexec
  obtain ⟨steps, hlogged, hiff⟩ := startup_verdict_iff hexec
  have hlog : (Prog.run deafAtFirst (startupLogged.run staticObject) (foundAfter 1)).1.1.2 =
      secondAttempt := by decide +kernel
  rw [← ((Prog.exec_handler _ _ _ _ _ _).mp hlogged).2] at hlog
  change steps = secondAttempt at hlog
  subst hlog
  refine ⟨_, _, _, hexec, hlogged, hiff.mpr fun found hfound => ?_⟩
  -- the tenth attempt is not made
  cases hfound

theorem not_verdict_of_run {σ : Type} {h : Handler σ BusEvent BusEvent.Resp}
    {icm icm' : Icm20948} {s s' : σ} {tr : BusTrace σ} {retval : Status} {steps : List MagStep}
    (hexec : Prog.Exec h.env (startupLogged.run icm) s tr ((retval, steps), icm') s')
    (hwrong : (Prog.run h (startupLogged.run icm) s).1.1.1 = Status.wrongID)
    (hfound : Status.ok ∈ attempts (Prog.run h (startupLogged.run icm) s).1.1.2) :
    ¬ Verdict retval steps := by
  rw [← ((Prog.exec_handler _ _ _ _ _ _).mp hexec).2] at hwrong hfound
  exact fun hverdict => (hverdict.1 hwrong).2 Status.ok hfound rfl

/-- The tenth attempt finds the magnetometer, and the result is `WrongID`. -/
theorem tenth_attempt_taken_for_failure :
    ¬ ∀ (σ : Type) (env : Env σ BusEvent BusEvent.Resp) (icm icm' : Icm20948) (s s' : σ)
      (tr : BusTrace σ) (retval : Status),
      Prog.Exec env ((startupMagnetometer true).run icm) s tr (retval, icm') s' →
        ∃ steps, Prog.Exec env (startupLogged.run icm) s tr ((retval, steps), icm') s' ∧
          Verdict retval steps := by
  intro hall
  obtain ⟨steps, hlogged, hverdict⟩ := hall _ _ _ _ _ _ _ _
    (Prog.exec_run_pair deafAtFirst ((startupMagnetometer true).run staticObject)
      (foundAfter 9))
  exact not_verdict_of_run hlogged (by decide +kernel) (by decide +kernel) hverdict

end SimuSound.Imu.Icm20948
