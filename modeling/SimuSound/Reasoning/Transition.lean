import Mathlib.Data.List.Basic
import Mathlib.Tactic.Common

/-!
# Transition — runs of labelled transition systems

A run keeps, for every step, its label and the states around it, so that a property can speak of
every state the run passes through.
-/

namespace Reasoning

/-- One step of a run: the label and the states before and after it. -/
structure Step (σ L : Type) where
  pre : σ
  label : L
  post : σ

variable {σ L : Type}

/-- `Run step s tr s'`: the steps `tr` lead from `s` to `s'`. -/
def Run (step : σ → L → σ → Prop) : σ → List (Step σ L) → σ → Prop
  | s, [], s' => s' = s
  | s, x :: tr, s' => x.pre = s ∧ step s x.label x.post ∧ Run step x.post tr s'

variable {step : σ → L → σ → Prop}

@[simp] theorem run_nil (s s' : σ) : Run step s [] s' ↔ s' = s := Iff.rfl

/-- The invariant rule: an invariant that every step of the run preserves holds in every state the
run passes through. -/
theorem Run.invariant {Inv : σ → Prop} {s s' : σ} {tr : List (Step σ L)}
    (hrun : Run step s tr s') (hinit : Inv s)
    (hpres : ∀ x ∈ tr, Inv x.pre → step x.pre x.label x.post → Inv x.post) :
    Inv s' ∧ ∀ x ∈ tr, Inv x.pre ∧ Inv x.post := by
  induction tr generalizing s with
  | nil =>
    rw [run_nil] at hrun
    subst hrun
    exact ⟨hinit, fun x hx => absurd hx List.not_mem_nil⟩
  | cons y tr ih =>
    obtain ⟨rfl, hstep, hrun⟩ := hrun
    have hpost : Inv y.post := hpres y List.mem_cons_self hinit hstep
    obtain ⟨hlast, hall⟩ := ih hrun hpost fun x hx => hpres x (List.mem_cons_of_mem y hx)
    refine ⟨hlast, fun x hx => ?_⟩
    rcases List.mem_cons.mp hx with rfl | hx
    · exact ⟨hinit, hpost⟩
    · exact hall x hx

/-- Every step of a run is a step of the system. -/
theorem Run.step_mem {s s' : σ} {tr : List (Step σ L)} (hrun : Run step s tr s') :
    ∀ x ∈ tr, step x.pre x.label x.post := by
  induction tr generalizing s with
  | nil => exact fun x hx => absurd hx List.not_mem_nil
  | cons y tr ih =>
    obtain ⟨rfl, hstep, hrun⟩ := hrun
    intro x hx
    rcases List.mem_cons.mp hx with rfl | hx
    · exact hstep
    · exact ih hrun x hx

/-- A run is cut where its steps are. -/
theorem run_append {s s' : σ} {tr tr' : List (Step σ L)} :
    Run step s (tr ++ tr') s' ↔ ∃ m, Run step s tr m ∧ Run step m tr' s' := by
  induction tr generalizing s with
  | nil => simp
  | cons y tr ih =>
    constructor
    · rintro ⟨hpre, hstep, hrun⟩
      obtain ⟨m, hleft, hright⟩ := ih.mp hrun
      exact ⟨m, ⟨hpre, hstep, hleft⟩, hright⟩
    · rintro ⟨m, ⟨hpre, hstep, hleft⟩, hright⟩
      exact ⟨hpre, hstep, ih.mpr ⟨m, hleft, hright⟩⟩

/-- The invariant rule for a state and the steps that led to it. -/
theorem Run.history {Inv : List (Step σ L) → σ → Prop} {s s' : σ} {tr : List (Step σ L)}
    (hrun : Run step s tr s') (hinit : Inv [] s)
    (hpres : ∀ past x, Inv past x.pre → step x.pre x.label x.post → Inv (past ++ [x]) x.post) :
    Inv tr s' := by
  -- on the steps to come, with the steps taken so far in front
  suffices h : ∀ past, Inv past s → Inv (past ++ tr) s' from h [] hinit
  clear hinit
  induction tr generalizing s with
  | nil =>
    intro past hpast
    rw [run_nil] at hrun
    rw [List.append_nil, hrun]
    exact hpast
  | cons y tr ih =>
    obtain ⟨rfl, hstep, hrun⟩ := hrun
    intro past hpast
    rw [List.append_cons]
    exact ih hrun (past ++ [y]) (hpres past y hpast hstep)

/-- What some steps establish and the others keep holds from the first of those steps on. -/
theorem Run.since {Sets : L → Prop} {Agree : σ → Prop} {s s' : σ} {tr : List (Step σ L)}
    (hrun : Run step s tr s') (hsets : ∀ x ∈ tr, Sets x.label → Agree x.post)
    (hkeeps : ∀ x ∈ tr, ¬ Sets x.label → Agree x.pre → Agree x.post)
    (hsome : ∃ x ∈ tr, Sets x.label) : Agree s' := by
  suffices h : (Agree s ∨ ∃ x ∈ tr, Sets x.label) → Agree s' from h (Or.inr hsome)
  clear hsome
  induction tr generalizing s with
  | nil =>
    intro h
    rw [run_nil] at hrun
    rw [hrun]
    exact h.resolve_right fun hnone => absurd hnone.choose_spec.1 List.not_mem_nil
  | cons y tr ih =>
    obtain ⟨rfl, hstep, hrun⟩ := hrun
    intro h
    apply ih hrun (fun x hx => hsets x (List.mem_cons_of_mem y hx))
      fun x hx => hkeeps x (List.mem_cons_of_mem y hx)
    by_cases hy : Sets y.label
    · exact Or.inl (hsets y List.mem_cons_self hy)
    · -- either it held before this step, or a later step establishes it
      rcases h with hpre | ⟨x, hx, hset⟩
      · exact Or.inl (hkeeps y List.mem_cons_self hy hpre)
      · rcases List.mem_cons.mp hx with rfl | hx
        · exact absurd hset hy
        · exact Or.inr ⟨x, hx, hset⟩

/-- What every step computes from what was there is in the end computed from the beginning. -/
theorem Run.foldl {δ : Type} {val : σ → δ} {f : δ → Step σ L → δ} {s s' : σ}
    {tr : List (Step σ L)} (hrun : Run step s tr s') (h : ∀ x ∈ tr, val x.post = f (val x.pre) x) :
    val s' = tr.foldl f (val s) := by
  induction tr generalizing s with
  | nil =>
    rw [run_nil] at hrun
    rw [hrun]
    rfl
  | cons x tr ih =>
    obtain ⟨rfl, hstep, hrun⟩ := hrun
    rw [List.foldl_cons, ← h x List.mem_cons_self]
    exact ih hrun fun y hy => h y (List.mem_cons_of_mem x hy)

/-! ## The last value set -/

/-- The last of the values that the steps set, or the one before them. -/
def lastSet {δ : Type} (sets : Step σ L → Option δ) (tr : List (Step σ L)) (before : δ) : δ :=
  (tr.filterMap sets).getLast?.getD before

theorem lastSet_cons {δ : Type} (sets : Step σ L → Option δ) (x : Step σ L) (tr : List (Step σ L))
    (before : δ) : lastSet sets (x :: tr) before = lastSet sets tr ((sets x).getD before) := by
  unfold lastSet
  cases h : sets x with
  | none => rw [List.filterMap_cons_none h, Option.getD_none]
  | some v =>
    rw [List.filterMap_cons_some h, List.getLast?_cons, Option.getD_some, Option.getD_some]

/-- What every step either sets or leaves alone is in the end what the last step set it to. -/
theorem Run.lastSet {δ : Type} {val : σ → δ} {sets : Step σ L → Option δ} {s s' : σ}
    {tr : List (Step σ L)} (hrun : Run step s tr s')
    (hsets : ∀ x ∈ tr, step x.pre x.label x.post → val x.post = (sets x).getD (val x.pre)) :
    val s' = Reasoning.lastSet sets tr (val s) := by
  induction tr generalizing s with
  | nil =>
    rw [run_nil] at hrun
    rw [hrun]
    rfl
  | cons x tr ih =>
    obtain ⟨rfl, hstep, hrun⟩ := hrun
    rw [lastSet_cons, ← hsets x List.mem_cons_self hstep]
    exact ih hrun fun y hy => hsets y (List.mem_cons_of_mem x hy)

end Reasoning
