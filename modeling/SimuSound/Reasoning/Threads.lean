import Mathlib.Algebra.BigOperators.Group.List.Basic
import Mathlib.Algebra.Order.Ring.Nat
import SimuSound.Reasoning.Interaction

/-!
# Threads — programs that make their requests in turn

Each thread has a state of its own and a program that it is in the middle of.  Between two requests
of a thread any number of requests of others may come, so that what holds of a thread is said of the
program it still has before it.
-/

namespace Reasoning

/-- What a thread holds, and what it has still to do. -/
structure Thread (τ E : Type) (R : E → Type) (α : Type) where
  own : τ
  todo : Prog E R α

variable {σ τ E : Type} {R : E → Type} {α : Type}

/-- A thread makes its next request; the environment is the shared state with the thread's own. -/
def Thread.Advance (env : Env (σ × τ) E R) (t : Thread τ E R α) (s : σ) (o : Obs (σ × τ) E R)
    (t' : Thread τ E R α) (s' : σ) : Prop :=
  match t.todo with
  | .ret _ => False
  | .act e k =>
    ∃ r, o = ⟨(s, t.own), e, r⟩ ∧ env (s, t.own) e r (s', t'.own) ∧ t'.todo = k r

section
variable {env : Env (σ × τ) E R} {own own' : τ} {s s' : σ} {o : Obs (σ × τ) E R}
  {t' : Thread τ E R α}

theorem not_advance_ret {a : α} : ¬ Thread.Advance env ⟨own, .ret a⟩ s o t' s' := fun h => h

theorem advance_act {e : E} {k : R e → Prog E R α} :
    Thread.Advance env ⟨own, .act e k⟩ s o t' s' ↔
      ∃ r, o = ⟨(s, own), e, r⟩ ∧ env (s, own) e r (s', t'.own) ∧ t'.todo = k r := Iff.rfl

end

/-- One of the threads has become another. -/
def Replaced {β : Type} (ts : List β) (t t' : β) (ts' : List β) : Prop :=
  ∃ before after, ts = before ++ t :: after ∧ ts' = before ++ t' :: after

section
variable {β : Type} {ts ts' : List β} {t t' : β}

/-- What the threads have together changes as much as the one thread's part does. -/
theorem Replaced.sum (f : β → ℕ) (h : Replaced ts t t' ts') :
    (ts'.map f).sum + f t = (ts.map f).sum + f t' := by
  obtain ⟨before, after, rfl, rfl⟩ := h
  simp only [List.map_append, List.map_cons, List.sum_append, List.sum_cons]
  omega

/-- When the threads are at points of a program, so is the one that has moved. -/
theorem Replaced.of_map {γ : Type} {f : γ → β} {points : List γ}
    (h : Replaced (points.map f) t t' ts') :
    ∃ point ∈ points, f point = t ∧ ∀ point', f point' = t' →
      ∃ points', Replaced points point point' points' ∧ ts' = points'.map f := by
  obtain ⟨before, after, heq, rfl⟩ := h
  obtain ⟨ps, rest, rfl, rfl, hrest⟩ := List.map_eq_append_iff.mp heq
  obtain ⟨point, ps', rfl, rfl, rfl⟩ := List.map_eq_cons_iff.mp hrest
  refine ⟨point, List.mem_append_right _ List.mem_cons_self, rfl, fun point' hpoint => ?_⟩
  refine ⟨ps ++ point' :: ps', ⟨ps, ps', rfl, rfl⟩, ?_⟩
  rw [List.map_append, List.map_cons, hpoint]

end

end Reasoning
