import SimuSound.Reasoning.ErrorReporting

/-!
# Triple — what code establishes while nothing fails

A precondition, a program with a state of its own, and a postcondition, over the executions in which
every answer is good.  The assertions speak of the program's state and of the environment's.
-/

namespace Reasoning.Prog

variable {E : Type} {R : E → Type} {σ τ α β : Type}

/-- From states that satisfy `P` the program ends, as far as its answers are good, with a result and
in states that satisfy `Q`. -/
def Triple (env : Env σ E R) (good : (e : E) → R e → Prop) (P : τ → σ → Prop)
    (p : StateT τ (Prog E R) α) (Q : α → τ → σ → Prop) : Prop :=
  ∀ t s tr a t' s', P t s → Exec env (p.run t) s tr (a, t') s' → AllGood good tr → Q a t' s'

section
variable {env : Env σ E R} {good : (e : E) → R e → Prop} {P P' : τ → σ → Prop}
  {p p' : StateT τ (Prog E R) α} {Q Q' : α → τ → σ → Prop}

theorem Triple.pre (h : Triple env good P' p Q) (hpre : ∀ t s, P t s → P' t s) :
    Triple env good P p Q := by
  intro t s tr a t' s' hP hexec hgood
  exact h t s tr a t' s' (hpre t s hP) hexec hgood

theorem Triple.post (h : Triple env good P p Q') (hpost : ∀ a t s, Q' a t s → Q a t s) :
    Triple env good P p Q := by
  intro t s tr a t' s' hP hexec hgood
  exact hpost a t' s' (h t s tr a t' s' hP hexec hgood)

theorem triple_pure {a : α} (h : ∀ t s, P t s → Q a t s) :
    Triple env good P (pure a) Q := by
  intro t s tr b t' s' hP hexec _
  obtain ⟨-, rfl, rfl, rfl⟩ := exec_pureM.mp hexec
  exact h t' s' hP

theorem Triple.bind {M : α → τ → σ → Prop} {q : α → StateT τ (Prog E R) β}
    {Q : β → τ → σ → Prop} (hp : Triple env good P p M)
    (hq : ∀ a, Triple env good (M a) (q a) Q) : Triple env good P (p >>= q) Q := by
  intro t s tr b t' s' hP hexec hgood
  obtain ⟨a, t₁, s₁, tr₁, tr₂, rfl, hfirst, hrest⟩ := exec_bindM.mp hexec
  have hgood₁ : AllGood good tr₁ := fun o ho => hgood o (List.mem_append_left _ ho)
  have hgood₂ : AllGood good tr₂ := fun o ho => hgood o (List.mem_append_right _ ho)
  exact hq a t₁ s₁ tr₂ b t' s' (hp t s tr₁ a t₁ s₁ hP hfirst hgood₁) hrest hgood₂

/-- The state itself is what `get` returns. -/
theorem triple_get : Triple env good P (get : StateT τ (Prog E R) τ) fun a t s => a = t ∧ P t s := by
  intro t s tr a t' s' hP hexec _
  obtain ⟨-, rfl, rfl, rfl⟩ := exec_pureM.mp hexec
  exact ⟨rfl, hP⟩

theorem triple_modify {g : τ → τ} {Q : τ → σ → Prop} (h : ∀ t s, P t s → Q (g t) s) :
    Triple env good P (modify g : StateT τ (Prog E R) PUnit) fun _ => Q := by
  intro t s tr a t' s' hP hexec _
  obtain ⟨-, -, rfl, rfl⟩ := exec_pureM.mp hexec
  exact h t s' hP

/-- Code without the state. -/
theorem triple_lift {p : Prog E R α}
    (h : ∀ t s tr a s', P t s → Exec env p s tr a s' → AllGood good tr → Q a t s') :
    Triple env good P (liftM p) Q := by
  intro t s tr a t' s' hP hexec hgood
  obtain ⟨hp, rfl⟩ := (exec_lift _ _ _ _ _ _ _ _).mp hexec
  exact h t' s tr a s' hP hp hgood

theorem Triple.ite {c : Prop} [Decidable c] (hp : c → Triple env good P p Q)
    (hp' : ¬ c → Triple env good P p' Q) : Triple env good P (if c then p else p') Q := by
  split
  · exact hp ‹_›
  · exact hp' ‹_›

/-- A check of the state that the precondition rules out. -/
theorem triple_unless {c : τ → Prop} [DecidablePred c] {q : τ → StateT τ (Prog E R) α}
    (hnot : ∀ t s, P t s → ¬ c t)
    (hq : ∀ t₀, Triple env good (fun t s => t = t₀ ∧ P t s) (q t₀) Q) :
    Triple env good P (get >>= fun t => if c t then p else q t) Q := by
  refine triple_get.bind fun t₀ => Triple.ite (fun hc => ?_) fun _ => ?_
  · intro t s tr a t' s' hP _ _
    exact absurd (hP.1 ▸ hc) (hnot t s hP.2)
  · exact (hq t₀).pre fun t s hP => ⟨hP.1.symm, hP.2⟩

theorem triple_exists {ι : Type} {P : ι → τ → σ → Prop}
    (h : ∀ i, Triple env good (P i) p Q) : Triple env good (fun t s => ∃ i, P i t s) p Q := by
  rintro t s tr a t' s' ⟨i, hP⟩ hexec hgood
  exact h i t s tr a t' s' hP hexec hgood

/-- What the code leaves alone is what it was. -/
theorem Triple.frame {δ : Type} {g : τ → δ} {c : δ} (hp : Triple env good P p Q)
    (hleaves : Leaves g p) :
    Triple env good (fun t s => P t s ∧ g t = c) p fun a t s => Q a t s ∧ g t = c := by
  intro t s tr a t' s' hP hexec hgood
  have hsame : g t' = g t := (hleaves t).exec hexec
  exact ⟨hp t s tr a t' s' hP.1 hexec hgood, hsame.trans hP.2⟩

/-- A step that is checked goes on when it has succeeded. -/
theorem Triple.guard {succ : α → Prop} [DecidablePred succ] {M : α → τ → σ → Prop}
    {fail : α → β} {q : α → StateT τ (Prog E R) β} {Q : β → τ → σ → Prop}
    (hp : Triple env good P p fun a t s => succ a ∧ M a t s)
    (hq : ∀ a, succ a → Triple env good (M a) (q a) Q) :
    Triple env good P (p >>= fun a => if ¬ succ a then pure (fail a) else q a) Q := by
  refine hp.bind fun a => Triple.ite (fun hne => ?_) fun hok => ?_
  · intro t s tr b t' s' hP _ _
    exact absurd hP.1 hne
  · exact (hq a (Decidable.not_not.mp hok)).pre fun t s hP => hP.2

/-- The same in code without the state. -/
theorem Triple.liftGuard {succ : α → Prop} [DecidablePred succ] {M : α → τ → σ → Prop}
    {fail : α → β} {p : Prog E R α} {q : α → Prog E R β} {Q : β → τ → σ → Prop}
    (hp : Triple env good P (liftM p) fun a t s => succ a ∧ M a t s)
    (hq : ∀ a, succ a → Triple env good (M a) (liftM (q a)) Q) :
    Triple env good P (liftM (p >>= fun a => if ¬ succ a then pure (fail a) else q a)) Q := by
  have hguard : Triple env good P (liftM p >>= fun a => if ¬ succ a then pure (fail a)
      else liftM (q a)) Q := hp.guard hq
  have heq : (liftM (p >>= fun a => if ¬ succ a then pure (fail a) else q a) :
      StateT τ (Prog E R) β) = liftM p >>= fun a => if ¬ succ a then pure (fail a)
        else liftM (q a) := by
    rw [liftM_bind]
    refine bind_congr fun a => ?_
    split
    · rfl
    · rfl
  rw [heq]
  exact hguard

end

/-! ## Records of the answers -/

section
variable {μ : Type} {env : Env σ E R} {good : (e : E) → R e → Prop}
  {record : μ → (e : E) → R e → μ}

/-- An environment that answers anything, and whose state is a record of its answers. -/
def recording (record : μ → (e : E) → R e → μ) : Env μ E R := fun m e r m' => m' = record m e r

/-- The record of a trace. -/
def recordOf (record : μ → (e : E) → R e → μ) (m : μ) (tr : List (Obs σ E R)) : μ :=
  tr.foldl (fun m o => record m o.event o.resp) m

/-- An execution against any environment is one against the record of its answers. -/
theorem Exec.recorded {p : Prog E R α} {s s' : σ} {tr : List (Obs σ E R)} {a : α}
    (hexec : Exec env p s tr a s') (hgood : AllGood good tr) (m : μ) :
    ∃ tr', Exec (recording record) p m tr' a (recordOf record m tr) ∧ AllGood good tr' := by
  induction p generalizing s tr m with
  | ret b =>
    obtain ⟨rfl, rfl, -⟩ := hexec
    exact ⟨[], ⟨rfl, rfl, rfl⟩, allGood_nil⟩
  | act e k ih =>
    obtain ⟨r, s₁, tr₁, -, rfl, hk⟩ := hexec
    obtain ⟨hr, hgood₁⟩ := (allGood_cons _ _).mp hgood
    obtain ⟨tr', hrest, hgood'⟩ := ih r hk hgood₁ (record m e r)
    refine ⟨⟨m, e, r⟩ :: tr', ⟨r, record m e r, tr', rfl, rfl, hrest⟩, ?_⟩
    exact (allGood_cons _ _).mpr ⟨hr, hgood'⟩

/-- What a triple says of every record it says of the answers of any environment. -/
theorem Triple.recorded {P : τ → μ → Prop} {p : StateT τ (Prog E R) α} {Q : α → τ → μ → Prop}
    (h : Triple (recording record) good P p Q) {t t' : τ} {s s' : σ} {tr : List (Obs σ E R)}
    {a : α} {m : μ} (hP : P t m) (hexec : Exec env (p.run t) s tr (a, t') s')
    (hgood : AllGood good tr) : Q a t' (recordOf record m tr) := by
  have hrecorded : ∃ tr', Exec (recording record) (p.run t) m tr' (a, t') (recordOf record m tr) ∧
      AllGood good tr' := hexec.recorded hgood m
  obtain ⟨tr', hrec, hgood'⟩ := hrecorded
  exact h t m tr' a t' _ hP hrec hgood'

end

end Reasoning.Prog
