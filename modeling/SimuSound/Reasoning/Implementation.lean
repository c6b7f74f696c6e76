import SimuSound.Reasoning.Interaction

/-!
# Implementation — requests carried out by programs over other requests

A driver asks for register accesses, and code under it turns each of them into bytes on a wire.
`p.via impl` is `p` with every request carried out by `impl`, which has a state of its own.  Seen
from `p`, `impl` and the environment under it are one environment.
-/

namespace Reasoning

/-- The observation with another state in it. -/
def Obs.map {σ σ' E : Type} {R : E → Type} (f : σ → σ') (o : Obs σ E R) : Obs σ' E R :=
  ⟨f o.pre, o.event, o.resp⟩

namespace Prog

variable {E F : Type} {R : E → Type} {S : F → Type} {σ σ' τ κ α β : Type}

/-- The program with every request carried out by `impl`. -/
def via (impl : (e : E) → StateT τ (Prog F S) (R e)) : Prog E R α → StateT τ (Prog F S) α
  | .ret a => pure a
  | .act e k => impl e >>= fun r => (k r).via impl

/-- What may become of a request that `impl` carries out. -/
def under (impl : (e : E) → StateT τ (Prog F S) (R e)) (env : Env σ F S) : Env (τ × σ) E R :=
  fun w e r w' => ∃ tr, Exec env ((impl e).run w.1) w.2 tr (r, w'.1) w'.2

section
variable {impl : (e : E) → StateT τ (Prog F S) (R e)} {env : Env σ F S}
  {view : Obs σ F S → κ} {log : Obs (τ × σ) E R → List κ}

/-- The program sees nothing of how its requests are carried out but their answers, and what is seen
of the requests made below is what is seen of one request after the other. -/
theorem exec_via
    (hlog : ∀ (w : τ × σ) e r (w' : τ × σ) tr, Exec env ((impl e).run w.1) w.2 tr (r, w'.1) w'.2 →
      tr.map view = log ⟨w, e, r⟩)
    {p : Prog E R α} {t t' : τ} {s s' : σ} {a : α} {words : List κ} :
    (∃ tr, Exec env ((p.via impl).run t) s tr (a, t') s' ∧ tr.map view = words) ↔
      ∃ tr, Exec (under impl env) p (t, s) tr a (t', s') ∧ tr.flatMap log = words := by
  induction p generalizing t s words with
  | ret b =>
    constructor
    · rintro ⟨tr, hexec, rfl⟩
      obtain ⟨rfl, rfl, rfl, rfl⟩ := exec_pureM.mp hexec
      exact ⟨[], ⟨rfl, rfl, rfl⟩, rfl⟩
    · rintro ⟨tr, ⟨rfl, rfl, hw⟩, rfl⟩
      obtain ⟨rfl, rfl⟩ := Prod.mk.inj hw
      exact ⟨[], exec_pureM.mpr ⟨rfl, rfl, rfl, rfl⟩, rfl⟩
  | act e k ih =>
    constructor
    · rintro ⟨tr, hexec, rfl⟩
      obtain ⟨r, t₁, s₁, tr₁, tr₂, rfl, hfirst, hrest⟩ := exec_bindM.mp hexec
      -- the requests of the first answer, then those of the rest
      obtain ⟨tr', hexec', hwords⟩ := ih r |>.mp ⟨tr₂, hrest, rfl⟩
      refine ⟨⟨(t, s), e, r⟩ :: tr', ⟨r, (t₁, s₁), tr', ⟨tr₁, hfirst⟩, rfl, hexec'⟩, ?_⟩
      rw [List.flatMap_cons, hwords, List.map_append, hlog (t, s) e r (t₁, s₁) tr₁ hfirst]
    · rintro ⟨tr, ⟨r, ⟨t₁, s₁⟩, tr', ⟨tr₁, hfirst⟩, rfl, hexec'⟩, rfl⟩
      obtain ⟨tr₂, hrest, hwords⟩ := ih r |>.mpr ⟨tr', hexec', rfl⟩
      refine ⟨tr₁ ++ tr₂, exec_bindM.mpr ⟨r, t₁, s₁, tr₁, tr₂, rfl, hfirst, hrest⟩, ?_⟩
      rw [List.flatMap_cons, ← hwords, List.map_append, hlog (t, s) e r (t₁, s₁) tr₁ hfirst]

end

/-- Another environment that allows what was observed allows the execution. -/
theorem Exec.mono_mem {env env' : Env σ E R} {p : Prog E R α} {s : σ} {tr : List (Obs σ E R)}
    {a : α} {s' : σ} (hexec : Exec env p s tr a s')
    (hle : ∀ o ∈ tr, ∀ s', env o.pre o.event o.resp s' → env' o.pre o.event o.resp s') :
    Exec env' p s tr a s' := by
  induction p generalizing s tr with
  | ret b => exact hexec
  | act e k ih =>
    obtain ⟨r, s₁, tr₁, henv, rfl, hk⟩ := hexec
    have hrest := ih r hk fun o ho => hle o (List.mem_cons_of_mem _ ho)
    exact ⟨r, s₁, tr₁, hle _ List.mem_cons_self s₁ henv, rfl, hrest⟩

/-- What a program does in an environment it does in one that sees less of the state, as long as an
invariant is kept and its requests are of one kind. -/
theorem Exec.project {env : Env σ E R} {env' : Env σ' E R} {f : σ → σ'} {P : E → Prop}
    {Inv : σ → Prop}
    (hstep : ∀ s e r s', P e → Inv s → env s e r s' → env' (f s) e r (f s') ∧ Inv s')
    {p : Prog E R α} (huses : Uses P p) {s : σ} {tr : List (Obs σ E R)} {a : α} {s' : σ}
    (hs : Inv s) (hexec : Exec env p s tr a s') :
    Exec env' p (f s) (tr.map (Obs.map f)) a (f s') ∧ Inv s' ∧
      ∀ o ∈ tr, Inv o.pre ∧ P o.event := by
  induction p generalizing s tr with
  | ret b =>
    obtain ⟨rfl, rfl, rfl⟩ := hexec
    exact ⟨⟨rfl, rfl, rfl⟩, hs, fun o ho => absurd ho List.not_mem_nil⟩
  | act e k ih =>
    obtain ⟨r, s₁, tr₁, henv, rfl, hk⟩ := hexec
    obtain ⟨henv', hs₁⟩ := hstep _ _ _ _ huses.1 hs henv
    obtain ⟨hk', hs', hpre⟩ := ih r (huses.2 r) hs₁ hk
    refine ⟨⟨r, f s₁, _, henv', rfl, hk'⟩, hs', fun o ho => ?_⟩
    rcases List.mem_cons.mp ho with rfl | ho
    · exact ⟨hs, huses.1⟩
    · exact hpre o ho

end Prog

end Reasoning
