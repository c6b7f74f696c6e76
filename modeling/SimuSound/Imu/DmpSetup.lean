import SimuSound.Imu.Object
import SimuSound.Reasoning.Triple

/-!
# DmpSetup — the calls that `initializeDMP` makes

It makes the same calls whatever they return and keeps the greatest status.
-/

namespace SimuSound.Imu

open Reasoning

/-! ## The worst result -/

namespace Icm20948

theorem worse_eq_ok (worstResult result : Status) :
    worse worstResult result = Status.ok ↔ worstResult = Status.ok ∧ result = Status.ok := by
  have hzero : Status.ok.toNat = 0 := rfl
  unfold worse
  simp only [gt_iff_lt, BitVec.lt_def, ← BitVec.toNat_inj, hzero]
  split <;> omega

theorem worstOf_append (steps steps' : List (Method Status)) (worstResult : Status) :
    worstOf (steps ++ steps') worstResult =
      worstOf steps worstResult >>= fun worse => worstOf steps' worse := by
  induction steps generalizing worstResult with
  | nil => rw [List.nil_append, worstOf, pure_bind]
  | cons step steps ih => simp only [List.cons_append, worstOf, bind_assoc, ih]

/-! ## Methods while nothing fails -/

section
variable {σ α : Type} {env : Env σ BusEvent BusEvent.Resp}

theorem triple_report {P : Icm20948 → σ → Prop} {result : Status}
    (hP : ∀ icm s, P icm s → P { icm with status := result } s) :
    Prog.Triple env Good P (report result) fun status icm s =>
      status = result ∧ icm.status = result ∧ P icm s := by
  let Q : PUnit → Icm20948 → σ → Prop := fun _ icm s => icm.status = result ∧ P icm s
  refine Prog.Triple.bind (M := Q) (Prog.triple_modify fun icm s h => ⟨rfl, hP icm s h⟩) fun _ => ?_
  exact Prog.triple_pure fun _ _ h => ⟨rfl, h⟩

/-- A method that asks for the DMP, where it is there. -/
theorem triple_ifDmp {P : Icm20948 → σ → Prop} {step : Method Status}
    {Q : Status → Icm20948 → σ → Prop}
    (havail : ∀ icm s, P icm s → icm.device.dmpFirmwareAvailable = true)
    (h : Prog.Triple env Good P step Q) : Prog.Triple env Good P (ifDmp step) Q := by
  refine Prog.triple_get.bind fun icm₀ => Prog.Triple.ite (fun _ => ?_) fun hnone => ?_
  · exact h.pre fun icm s hP => hP.2
  · intro icm s tr a icm' s' hP _ _
    obtain ⟨rfl, hP⟩ := hP
    exact absurd (havail _ _ hP) hnone

/-- A call of a driver function. -/
theorem triple_onDevice {p : Drv α} {P : Device → σ → Prop} {Q : α → Device → σ → Prop}
    (h : Prog.Triple env Good P p Q) :
    Prog.Triple env Good (fun icm s => P icm.device s) (onDevice p)
      fun a icm s => Q a icm.device s := by
  intro icm s tr a icm' s' hP hexec hok
  obtain ⟨r, s₁, t₁, t₂, rfl, hp, hret⟩ := (Prog.exec_bind _ _ _ _ _ _ _).mp hexec
  obtain ⟨rfl, heq, rfl⟩ := (Prog.exec_pure _ _ _ _ _ _).mp hret
  obtain ⟨rfl, rfl⟩ := Prod.mk.inj heq
  rw [List.append_nil] at hok
  exact h icm.device s t₁ r.1 r.2 s' hP hp hok

end

def dmpAvailable (icm : Icm20948) : Bool := icm.device.dmpFirmwareAvailable

end Icm20948

/-- Nothing a driver function does changes `_dmp_firmware_available`. -/
abbrev LeavesDmp {α : Type} (p : Drv α) : Prop := Prog.Leaves Device.dmpFirmwareAvailable p

end SimuSound.Imu
