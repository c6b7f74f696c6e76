import Mathlib.Logic.Basic
import Mathlib.Data.List.Basic

/-!
# Interaction — programs that talk to an environment

A driver, a callback or a reader loop is a program whose only effects are requests to something
outside it: a bus, a kernel, another library.  `Prog E R α` is the finite tree of such requests, and
an environment says which answers are possible and how its own state moves.  Nothing below depends
on what the events are.
-/

namespace Reasoning

/-- A program over the events `E`; `R e` is the type of the answers to `e`. -/
inductive Prog (E : Type) (R : E → Type) (α : Type) : Type
  | ret (a : α) : Prog E R α
  | act (e : E) (k : R e → Prog E R α) : Prog E R α

/-- One request as the environment saw it: its state before, the event and its answer. -/
structure Obs (σ E : Type) (R : E → Type) where
  pre : σ
  event : E
  resp : R event

/-- An environment: which answers it may give to an event, and its state afterwards. -/
abbrev Env (σ E : Type) (R : E → Type) := σ → (e : E) → R e → σ → Prop

/-- A deterministic environment, which a test can run. -/
abbrev Handler (σ E : Type) (R : E → Type) := (e : E) → σ → R e × σ

def Handler.env {σ E : Type} {R : E → Type} (h : Handler σ E R) : Env σ E R :=
  fun s e r s' => h e s = (r, s')

theorem Handler.answer_eq {σ E : Type} {R : E → Type} {h : Handler σ E R} {s s' : σ} {e : E}
    {r : R e} (henv : h.env s e r s') : r = (h e s).1 ∧ s' = (h e s).2 :=
  Prod.mk.inj (Eq.symm henv)

namespace Prog

variable {E : Type} {R : E → Type} {σ α β γ : Type}

def bind (p : Prog E R α) (f : α → Prog E R β) : Prog E R β :=
  match p with
  | .ret a => f a
  | .act e k => .act e fun r => (k r).bind f

instance : Monad (Prog E R) where
  pure := .ret
  bind := .bind

/-- Issue one event and return its answer. -/
def perform (e : E) : Prog E R (R e) := .act e .ret

theorem bind_ret (p : Prog E R α) : p.bind .ret = p := by
  induction p with
  | ret a => rfl
  | act e k ih => simp only [bind, ih]

theorem bind_assoc (p : Prog E R α) (f : α → Prog E R β) (g : β → Prog E R γ) :
    (p.bind f).bind g = p.bind fun a => (f a).bind g := by
  induction p with
  | ret a => rfl
  | act e k ih => simp only [bind, ih]

instance : LawfulMonad (Prog E R) :=
  LawfulMonad.mk' _ (fun p => bind_ret p) (fun _ _ => rfl) (fun p f g => bind_assoc p f g)

/-! ## Executions -/

/-- `Exec env p s tr a s'`: from `s` the program can return `a` with the environment in `s'`,
having made the requests `tr`. -/
def Exec (env : Env σ E R) : Prog E R α → σ → List (Obs σ E R) → α → σ → Prop
  | .ret a, s, tr, b, s' => tr = [] ∧ b = a ∧ s' = s
  | .act e k, s, tr, b, s' =>
      ∃ r s₁ tr₁, env s e r s₁ ∧ tr = ⟨s, e, r⟩ :: tr₁ ∧ Exec env (k r) s₁ tr₁ b s'

@[simp] theorem exec_pure (env : Env σ E R) (a : α) (s : σ) (tr : List (Obs σ E R)) (b : α)
    (s' : σ) :
    Exec env (pure a) s tr b s' ↔ tr = [] ∧ b = a ∧ s' = s := Iff.rfl

/-- An early return. -/
theorem exec_return_if {env : Env σ E R} {c : Prop} [Decidable c] {a b : α} {p : Prog E R α}
    {s s' : σ} {tr : List (Obs σ E R)} :
    Exec env (if c then pure a else p) s tr b s' ↔
      if c then tr = [] ∧ b = a ∧ s' = s else Exec env p s tr b s' := by
  split
  · exact exec_pure env a s tr b s'
  · exact Iff.rfl

@[simp] theorem exec_perform (env : Env σ E R) (e : E) (s : σ) (tr : List (Obs σ E R)) (r : R e)
    (s' : σ) : Exec env (perform e) s tr r s' ↔ env s e r s' ∧ tr = [⟨s, e, r⟩] := by
  constructor
  · rintro ⟨r₁, s₁, tr₁, henv, htr, rfl, rfl, rfl⟩
    exact ⟨henv, htr⟩
  · rintro ⟨henv, htr⟩
    exact ⟨r, s', [], henv, htr, rfl, rfl, rfl⟩

/-- A request and what is done with its answer. -/
theorem exec_perform_bind {env : Env σ E R} {e : E} {f : R e → Prog E R α} {s s' : σ}
    {tr : List (Obs σ E R)} {a : α} :
    Exec env (perform e >>= f) s tr a s' ↔
      ∃ r s₁ t₁, env s e r s₁ ∧ tr = ⟨s, e, r⟩ :: t₁ ∧ Exec env (f r) s₁ t₁ a s' := Iff.rfl

theorem exec_bind (env : Env σ E R) (p : Prog E R α) (f : α → Prog E R β) (s : σ)
    (tr : List (Obs σ E R)) (b : β) (s' : σ) :
    Exec env (p >>= f) s tr b s' ↔
      ∃ a s₁ t₁ t₂, tr = t₁ ++ t₂ ∧ Exec env p s t₁ a s₁ ∧ Exec env (f a) s₁ t₂ b s' := by
  change Exec env (p.bind f) s tr b s' ↔ _
  -- the first event of `p` moves from the front of the whole trace to that of `t₁`
  induction p generalizing s tr with
  | ret a =>
    constructor
    · intro h
      exact ⟨a, s, [], tr, rfl, ⟨rfl, rfl, rfl⟩, h⟩
    · rintro ⟨_, _, _, t₂, rfl, ⟨rfl, rfl, rfl⟩, h⟩
      exact h
  | act e k ih =>
    constructor
    · rintro ⟨r, s₁, tr₁, henv, rfl, h⟩
      obtain ⟨a, s₂, t₁, t₂, rfl, h₁, h₂⟩ := (ih r s₁ tr₁).mp h
      exact ⟨a, s₂, ⟨s, e, r⟩ :: t₁, t₂, rfl, ⟨r, s₁, t₁, henv, rfl, h₁⟩, h₂⟩
    · rintro ⟨a, s₂, _, t₂, rfl, ⟨r, s₁, t₁, henv, rfl, h₁⟩, h₂⟩
      exact ⟨r, s₁, t₁ ++ t₂, henv, rfl, (ih r s₁ _).mpr ⟨a, s₂, t₁, t₂, rfl, h₁, h₂⟩⟩

/-- The answers determine the result. -/
theorem Exec.result_unique {env : Env σ E R} {p : Prog E R α} {s s' : σ} {tr : List (Obs σ E R)}
    {a b : α} {s₁ s₂ : σ} (ha : Exec env p s tr a s₁) (hb : Exec env p s' tr b s₂) : a = b := by
  induction p generalizing s s' tr with
  | ret c =>
    obtain ⟨-, rfl, -⟩ := ha
    obtain ⟨-, rfl, -⟩ := hb
    rfl
  | act e k ih =>
    obtain ⟨r, s₃, t₁, -, rfl, ha⟩ := ha
    obtain ⟨r', s₄, t₂, -, htr, hb⟩ := hb
    have ho := (List.cons.inj htr).1
    have ht := (List.cons.inj htr).2
    rw [Obs.mk.injEq] at ho
    -- the same event, so the answers have one type
    have hr : r = r' := eq_of_heq ho.2.2
    subst hr ht
    exact ih r ha hb

/-- What one environment does another allows, as long as an invariant is kept. -/
theorem Exec.allowed {env env' : Env σ E R} (Inv : σ → Prop)
    (hle : ∀ s e r s', Inv s → env s e r s' → env' s e r s' ∧ Inv s')
    {p : Prog E R α} {s : σ} {tr : List (Obs σ E R)} {a : α} {s' : σ} (hs : Inv s)
    (h : Exec env p s tr a s') : Exec env' p s tr a s' ∧ Inv s' := by
  induction p generalizing s tr with
  | ret b =>
    refine ⟨h, ?_⟩
    rw [h.2.2]
    exact hs
  | act e k ih =>
    obtain ⟨r, s₁, tr₁, henv, rfl, h⟩ := h
    obtain ⟨henv', hs₁⟩ := hle _ _ _ _ hs henv
    obtain ⟨h', hs'⟩ := ih r hs₁ h
    exact ⟨⟨r, s₁, tr₁, henv', rfl, h'⟩, hs'⟩

theorem Exec.mono {env env' : Env σ E R} (hle : ∀ s e r s', env s e r s' → env' s e r s')
    {p : Prog E R α} {s : σ} {tr : List (Obs σ E R)} {a : α} {s' : σ}
    (h : Exec env p s tr a s') : Exec env' p s tr a s' :=
  (h.allowed (fun _ => True) (fun s e r s' _ henv => ⟨hle s e r s' henv, trivial⟩) trivial).1

/-! ## Runs against a deterministic environment -/

def run (h : Handler σ E R) : Prog E R α → σ → α × σ
  | .ret a, s => (a, s)
  | .act e k, s => run h (k (h e s).1) (h e s).2

def trace (h : Handler σ E R) : Prog E R α → σ → List (Obs σ E R)
  | .ret _, _ => []
  | .act e k, s => ⟨s, e, (h e s).1⟩ :: trace h (k (h e s).1) (h e s).2

/-- Against a handler there is exactly one execution, the run. -/
theorem exec_handler (h : Handler σ E R) (p : Prog E R α) (s : σ) (tr : List (Obs σ E R)) (a : α)
    (s' : σ) : Exec h.env p s tr a s' ↔ tr = trace h p s ∧ (a, s') = run h p s := by
  induction p generalizing s tr with
  | ret b => simp only [Exec, trace, run, Prod.mk.injEq]
  | act e k ih =>
    simp only [Exec, trace, run]
    constructor
    · rintro ⟨r, s₁, tr₁, henv, rfl, hk⟩
      obtain ⟨rfl, rfl⟩ := h.answer_eq henv
      obtain ⟨rfl, hrun⟩ := (ih _ _ tr₁).mp hk
      exact ⟨rfl, hrun⟩
    · rintro ⟨rfl, hrun⟩
      exact ⟨(h e s).1, (h e s).2, _, rfl, rfl, (ih _ _ _).mpr ⟨rfl, hrun⟩⟩

theorem exec_run (h : Handler σ E R) (p : Prog E R α) (s : σ) :
    Exec h.env p s (trace h p s) (run h p s).1 (run h p s).2 :=
  (exec_handler h p s _ _ _).mpr ⟨rfl, rfl⟩

/-- The same for a result of two parts. -/
theorem exec_run_pair (h : Handler σ E R) (p : Prog E R (α × β)) (s : σ) :
    Exec h.env p s (trace h p s) ((run h p s).1.1, (run h p s).1.2) (run h p s).2 := exec_run h p s

/-! ## What a program can return, and what it can ask for -/

/-- Every result the program can end in satisfies `Q`, whatever the answers. -/
def Ends (Q : α → Prop) : Prog E R α → Prop
  | .ret a => Q a
  | .act _ k => ∀ r, Ends Q (k r)

/-- Every event the program can issue satisfies `P`, whatever the answers. -/
def Uses (P : E → Prop) : Prog E R α → Prop
  | .ret _ => True
  | .act e k => P e ∧ ∀ r, Uses P (k r)

theorem Ends.mono {Q Q' : α → Prop} (hle : ∀ a, Q a → Q' a) {p : Prog E R α} (h : Ends Q p) :
    Ends Q' p := by
  induction p with
  | ret a => exact hle a h
  | act e k ih => exact fun r => ih r (h r)

theorem ends_of_forall {Q : α → Prop} (hall : ∀ a, Q a) (p : Prog E R α) : Ends Q p := by
  induction p with
  | ret a => exact hall a
  | act e k ih => exact ih

@[simp] theorem ends_bind (Q : β → Prop) (p : Prog E R α) (f : α → Prog E R β) :
    Ends Q (p >>= f) ↔ Ends (fun a => Ends Q (f a)) p := by
  change Ends Q (p.bind f) ↔ _
  induction p with
  | ret a => exact Iff.rfl
  | act e k ih => exact forall_congr' ih

theorem Ends.exec {env : Env σ E R} {Q : α → Prop} {p : Prog E R α} (h : Ends Q p) {s : σ}
    {tr : List (Obs σ E R)} {a : α} {s' : σ} (hexec : Exec env p s tr a s') : Q a := by
  induction p generalizing s tr with
  | ret b =>
    obtain ⟨-, rfl, -⟩ := hexec
    exact h
  | act e k ih =>
    obtain ⟨r, s₁, tr₁, -, -, hk⟩ := hexec
    exact ih r (h r) hk

@[simp] theorem uses_pure (P : E → Prop) (a : α) : Uses P (pure a : Prog E R α) := trivial

theorem Uses.bind {P : E → Prop} {p : Prog E R α} {f : α → Prog E R β} (hp : Uses P p)
    (hf : ∀ a, Uses P (f a)) : Uses P (p >>= f) := by
  change Uses P (p.bind f)
  induction p with
  | ret a => exact hf a
  | act e k ih => exact ⟨hp.1, fun r => ih r (hp.2 r)⟩

theorem Uses.ite {P : E → Prop} {c : Prop} [Decidable c] {p q : Prog E R α} (hp : Uses P p)
    (hq : Uses P q) : Uses P (if c then p else q) := by
  split
  · exact hp
  · exact hq

theorem Uses.foldlM {P : E → Prop} {f : β → γ → Prog E R β} (hf : ∀ b c, Uses P (f b c))
    (l : List γ) (b : β) : Uses P (l.foldlM f b) := by
  induction l generalizing b with
  | nil => trivial
  | cons c l ih =>
    rw [List.foldlM_cons]
    exact (hf b c).bind ih

theorem Uses.mono {P P' : E → Prop} (hle : ∀ e, P e → P' e) {p : Prog E R α} (h : Uses P p) :
    Uses P' p := by
  induction p with
  | ret a => trivial
  | act e k ih => exact ⟨hle e h.1, fun r => ih r (h.2 r)⟩

theorem Uses.exec {env : Env σ E R} {P : E → Prop} {p : Prog E R α} (h : Uses P p) {s : σ}
    {tr : List (Obs σ E R)} {a : α} {s' : σ} (hexec : Exec env p s tr a s') :
    ∀ o ∈ tr, P o.event := by
  induction p generalizing s tr with
  | ret b =>
    obtain ⟨rfl, -, -⟩ := hexec
    exact fun o ho => absurd ho List.not_mem_nil
  | act e k ih =>
    obtain ⟨r, s₁, tr₁, -, rfl, hk⟩ := hexec
    intro o ho
    rcases List.mem_cons.mp ho with rfl | ho
    · exact h.1
    · exact ih r (h.2 r) hk o ho

/-- The frame rule: what every event of the program preserves, the program preserves. -/
theorem Exec.preserves {env : Env σ E R} {P : E → Prop} {Inv : σ → Prop}
    (hstep : ∀ s e r s', P e → env s e r s' → Inv s → Inv s') {p : Prog E R α}
    (huses : Uses P p) {s : σ} {tr : List (Obs σ E R)} {a : α} {s' : σ}
    (hexec : Exec env p s tr a s') (hs : Inv s) : Inv s' := by
  induction p generalizing s tr with
  | ret b =>
    obtain ⟨-, -, rfl⟩ := hexec
    exact hs
  | act e k ih =>
    obtain ⟨r, s₁, tr₁, henv, -, hk⟩ := hexec
    exact ih r (huses.2 r) hk (hstep _ _ _ _ huses.1 henv hs)

/-- When no event of the program moves the environment, every event finds it as it was. -/
theorem Exec.steady {env : Env σ E R} {P : E → Prop}
    (hstep : ∀ s e r s', P e → env s e r s' → s' = s) {p : Prog E R α} (huses : Uses P p) {s : σ}
    {tr : List (Obs σ E R)} {a : α} {s' : σ} (hexec : Exec env p s tr a s') :
    s' = s ∧ ∀ o ∈ tr, o.pre = s := by
  induction p generalizing s tr with
  | ret b =>
    obtain ⟨rfl, -, rfl⟩ := hexec
    exact ⟨rfl, fun o ho => absurd ho List.not_mem_nil⟩
  | act e k ih =>
    obtain ⟨r, s₁, tr₁, henv, rfl, hk⟩ := hexec
    -- this event did not move the environment, so the rest starts where it did
    obtain rfl := hstep _ _ _ _ huses.1 henv
    obtain ⟨hlast, hpre⟩ := ih r (huses.2 r) hk
    refine ⟨hlast, fun o ho => ?_⟩
    rcases List.mem_cons.mp ho with rfl | ho
    · rfl
    · exact hpre o ho

/-! ## Programs with a state of their own -/

section
variable {τ δ : Type}

/-- Whatever the answers, the program leaves `f` of its state as it was. -/
def Leaves (f : τ → δ) (p : StateT τ (Prog E R) α) : Prop :=
  ∀ t, Ends (fun r : α × τ => f r.2 = f t) (p.run t)

theorem exec_pureM {env : Env σ E R} {a b : α} {t t' : τ} {s s' : σ} {tr : List (Obs σ E R)} :
    Exec env ((pure a : StateT τ (Prog E R) α).run t) s tr (b, t') s' ↔
      tr = [] ∧ b = a ∧ t' = t ∧ s' = s := by
  refine (exec_pure env (a, t) s tr (b, t') s').trans ?_
  rw [Prod.mk.injEq, and_assoc]

theorem exec_lift (env : Env σ E R) (p : Prog E R α) (t : τ) (s : σ) (tr : List (Obs σ E R))
    (a : α) (t' : τ) (s' : σ) :
    Exec env ((liftM p : StateT τ (Prog E R) α).run t) s tr (a, t') s' ↔
      Exec env p s tr a s' ∧ t' = t := by
  rw [StateT.run_monadLift, exec_bind]
  constructor
  · rintro ⟨b, s₁, t₁, t₂, rfl, hp, hret⟩
    obtain ⟨rfl, rfl, rfl, rfl⟩ := exec_pureM.mp hret
    exact ⟨by rwa [List.append_nil], rfl⟩
  · rintro ⟨hp, rfl⟩
    exact ⟨a, s', tr, [], (List.append_nil tr).symm, hp, rfl, rfl, rfl⟩

theorem exec_bindM {env : Env σ E R} {p : StateT τ (Prog E R) α} {f : α → StateT τ (Prog E R) β}
    {t t' : τ} {s s' : σ} {tr : List (Obs σ E R)} {b : β} :
    Exec env ((p >>= f).run t) s tr (b, t') s' ↔
      ∃ a tₘ s₁ t₁ t₂, tr = t₁ ++ t₂ ∧ Exec env (p.run t) s t₁ (a, tₘ) s₁ ∧
        Exec env ((f a).run tₘ) s₁ t₂ (b, t') s' := by
  rw [StateT.run_bind, exec_bind]
  simp only [Prod.exists]

theorem exec_map {env : Env σ E R} {g : α → β} {p : StateT τ (Prog E R) α} {t t' : τ} {s s' : σ}
    {tr : List (Obs σ E R)} {b : β} :
    Exec env ((g <$> p).run t) s tr (b, t') s' ↔
      ∃ a, g a = b ∧ Exec env (p.run t) s tr (a, t') s' := by
  rw [StateT.run_map, map_eq_pure_bind, exec_bind]
  constructor
  · rintro ⟨⟨a, t₁⟩, s₁, tr₁, tr₂, rfl, hp, hret⟩
    obtain ⟨rfl, rfl, rfl, rfl⟩ := exec_pureM.mp hret
    exact ⟨a, rfl, by rwa [List.append_nil]⟩
  · rintro ⟨a, rfl, hp⟩
    exact ⟨(a, t'), s', tr, [], (List.append_nil tr).symm, hp, rfl, rfl, rfl⟩

/-- From every state, every event the program can issue satisfies `P`. -/
def UsesFrom (P : E → Prop) (p : StateT τ (Prog E R) α) : Prop := ∀ t, Uses P (p.run t)

section
variable {P : E → Prop}

theorem usesFrom_pure (a : α) : UsesFrom P (pure a : StateT τ (Prog E R) α) := fun _ => trivial

theorem usesFrom_get : UsesFrom P (get : StateT τ (Prog E R) τ) := fun _ => trivial

theorem usesFrom_modify (g : τ → τ) : UsesFrom P (modify g : StateT τ (Prog E R) PUnit) :=
  fun _ => trivial

theorem usesFrom_lift {p : Prog E R α} (hp : Uses P p) :
    UsesFrom P (liftM p : StateT τ (Prog E R) α) := by
  intro t
  rw [StateT.run_monadLift]
  exact hp.bind fun _ => trivial

theorem UsesFrom.bind {p : StateT τ (Prog E R) α} {q : α → StateT τ (Prog E R) β}
    (hp : UsesFrom P p) (hq : ∀ a, UsesFrom P (q a)) : UsesFrom P (p >>= q) := by
  intro t
  rw [StateT.run_bind]
  exact (hp t).bind fun r => hq r.1 r.2

theorem UsesFrom.ite {c : Prop} [Decidable c] {p q : StateT τ (Prog E R) α} (hp : UsesFrom P p)
    (hq : UsesFrom P q) : UsesFrom P (if c then p else q) := by
  split
  · exact hp
  · exact hq

end

variable {f : τ → δ}

theorem leaves_pure (a : α) : Leaves f (pure a : StateT τ (Prog E R) α) := fun _ => rfl

theorem leaves_get : Leaves f (get : StateT τ (Prog E R) τ) := fun _ => rfl

theorem leaves_modify {g : τ → τ} (h : ∀ t, f (g t) = f t) :
    Leaves f (modify g : StateT τ (Prog E R) PUnit) := fun t => h t

theorem leaves_lift (p : Prog E R α) : Leaves f (liftM p : StateT τ (Prog E R) α) := by
  intro t
  rw [StateT.run_monadLift, ends_bind]
  exact ends_of_forall (fun _ => rfl) p

theorem Leaves.bind {p : StateT τ (Prog E R) α} {q : α → StateT τ (Prog E R) β} (hp : Leaves f p)
    (hq : ∀ a, Leaves f (q a)) : Leaves f (p >>= q) := by
  intro t
  rw [StateT.run_bind, ends_bind]
  exact (hp t).mono fun r hr => (hq r.1 r.2).mono fun r' hr' => hr'.trans hr

theorem Leaves.ite {c : Prop} [Decidable c] {p q : StateT τ (Prog E R) α} (hp : Leaves f p)
    (hq : Leaves f q) : Leaves f (if c then p else q) := by
  split
  · exact hp
  · exact hq

end

end Prog

end Reasoning
