import SimuSound.Reasoning.Interaction

/-!
# ErrorReporting — results that account for every failed request

Some answers are failures.  A program reports them when a successful result is only possible after
answers that were all good, and it succeeds when good answers are all it needs.
-/

namespace Reasoning.Prog

variable {E : Type} {R : E → Type} {σ α β : Type}

/-- After the first bad answer the program can no longer end in success. -/
def Reports (good : (e : E) → R e → Prop) (succ : α → Prop) : Prog E R α → Prop
  | .ret _ => True
  | .act e k => ∀ r, (good e r → Reports good succ (k r)) ∧
      (¬ good e r → Ends (fun a => ¬ succ a) (k r))

/-- Every answer in a trace is good. -/
def AllGood (good : (e : E) → R e → Prop) (tr : List (Obs σ E R)) : Prop :=
  ∀ o ∈ tr, good o.event o.resp

variable {good : (e : E) → R e → Prop}

@[simp] theorem allGood_nil : AllGood good ([] : List (Obs σ E R)) :=
  fun _ ho => absurd ho List.not_mem_nil

@[simp] theorem allGood_cons (o : Obs σ E R) (tr : List (Obs σ E R)) :
    AllGood good (o :: tr) ↔ good o.event o.resp ∧ AllGood good tr := List.forall_mem_cons

@[simp] theorem allGood_append (t₁ t₂ : List (Obs σ E R)) :
    AllGood good (t₁ ++ t₂) ↔ AllGood good t₁ ∧ AllGood good t₂ := List.forall_mem_append

theorem reports_perform (e : E) {succ : R e → Prop} (h : ∀ r, succ r → good e r) :
    Reports good succ (perform e : Prog E R (R e)) :=
  fun r => ⟨fun _ => trivial, fun hbad hsucc => hbad (h r hsucc)⟩

/-- A sequence reports the failures of its parts if the second part cannot succeed after the first
has failed. -/
theorem Reports.bind {succ₁ : α → Prop} {succ₂ : β → Prop} {p : Prog E R α} {f : α → Prog E R β}
    (hp : Reports good succ₁ p) (hf : ∀ a, Reports good succ₂ (f a))
    (hfail : ∀ a, ¬ succ₁ a → Ends (fun b => ¬ succ₂ b) (f a)) : Reports good succ₂ (p >>= f) := by
  change Reports good succ₂ (p.bind f)
  induction p with
  | ret a => exact hf a
  | act e k ih =>
    intro r
    refine ⟨fun hgood => ih r ((hp r).1 hgood), fun hbad => ?_⟩
    change Ends _ (k r >>= f)
    rw [ends_bind]
    exact ((hp r).2 hbad).mono hfail

theorem Reports.exec {env : Env σ E R} {succ : α → Prop} {p : Prog E R α}
    (h : Reports good succ p) {s : σ} {tr : List (Obs σ E R)} {a : α} {s' : σ}
    (hexec : Exec env p s tr a s') (hsucc : succ a) : AllGood good tr := by
  induction p generalizing s tr with
  | ret b =>
    obtain ⟨rfl, -, -⟩ := hexec
    exact allGood_nil
  | act e k ih =>
    obtain ⟨r, s₁, tr₁, -, rfl, hk⟩ := hexec
    by_cases hgood : good e r
    · exact (allGood_cons _ _).mpr ⟨hgood, ih r ((h r).1 hgood) hk⟩
    · exact absurd hsucc (((h r).2 hgood).exec hk)

/-- Good answers lead to success. -/
def Succeeds (good : (e : E) → R e → Prop) (succ : α → Prop) : Prog E R α → Prop
  | .ret a => succ a
  | .act e k => ∀ r, good e r → Succeeds good succ (k r)

theorem Succeeds.bind {succ₁ : α → Prop} {succ₂ : β → Prop} {p : Prog E R α} {f : α → Prog E R β}
    (hp : Succeeds good succ₁ p) (hf : ∀ a, succ₁ a → Succeeds good succ₂ (f a)) :
    Succeeds good succ₂ (p >>= f) := by
  change Succeeds good succ₂ (p.bind f)
  induction p with
  | ret a => exact hf a hp
  | act e k ih => exact fun r hgood => ih r (hp r hgood)

theorem Succeeds.exec {env : Env σ E R} {succ : α → Prop} {p : Prog E R α}
    (h : Succeeds good succ p) {s : σ} {tr : List (Obs σ E R)} {a : α} {s' : σ}
    (hexec : Exec env p s tr a s') (hgood : AllGood good tr) : succ a := by
  induction p generalizing s tr with
  | ret b =>
    obtain ⟨-, rfl, -⟩ := hexec
    exact h
  | act e k ih =>
    obtain ⟨r, s₁, tr₁, -, rfl, hk⟩ := hexec
    obtain ⟨hr, htr⟩ := (allGood_cons _ _).mp hgood
    exact ih r (h r hr) hk htr

/-- Against a handler that never fails. -/
theorem allGood_trace {h : Handler σ E R} (hgood : ∀ e s, good e (h e s).1) (p : Prog E R α)
    (s : σ) : AllGood good (trace h p s) := by
  induction p generalizing s with
  | ret a => exact allGood_nil
  | act e k ih => exact (allGood_cons _ _).mpr ⟨hgood e s, ih _ _⟩

/-- Requests that cannot fail are all good. -/
theorem Uses.allGood {env : Env σ E R} {p : Prog E R α}
    (h : Uses (fun e => ∀ r, good e r) p) {s : σ} {tr : List (Obs σ E R)} {a : α} {s' : σ}
    (hexec : Exec env p s tr a s') : AllGood good tr :=
  fun o ho => h.exec hexec o ho o.resp

theorem Uses.reports {p : Prog E R α} (h : Uses (fun e => ∀ r, good e r) p) (succ : α → Prop) :
    Reports good succ p := by
  induction p with
  | ret a => trivial
  | act e k ih => exact fun r => ⟨fun _ => ih r (h.2 r), fun hbad => absurd (h.1 r) hbad⟩

end Reasoning.Prog
