import Mathlib.Logic.Function.Basic
import SimuSound.Reasoning.Interaction

/-!
# NonInterference — programs that keep a secret from their observer

Some answers of the environment are secret, and an observer sees a part of the other events and the
result.  A program keeps the secrets when two executions from one state, with different secrets,
look the same.  Two programs are compared step by step, so that a part that depends on a secret can
be followed by one that no longer does.
-/

namespace Reasoning

variable {E : Type} {R : E → Type} {σ α β γ δ Ω : Type}

/-- What is not secret is answered by `h`; a secret can be anything, and learning it changes
nothing. -/
def Handler.hiding (h : Handler σ E R) (secret : E → Prop) : Env σ E R := fun s e r s' =>
  (secret e → s' = s) ∧ (¬ secret e → h e s = (r, s'))

namespace Prog

/-- What the observer sees of a trace. -/
def seen (view : E → Option Ω) (tr : List (Obs σ E R)) : List Ω :=
  tr.filterMap fun o => view o.event

theorem seen_append (view : E → Option Ω) (t u : List (Obs σ E R)) :
    seen view (t ++ u) = seen view t ++ seen view u := List.filterMap_append

/-- An execution of `p` and one of `q` look the same and end in one state `s'`, with results that
`Q` relates there. -/
def Alike (env : Env σ E R) (view : E → Option Ω) (Q : α → β → σ → Prop) (p : Prog E R α)
    (q : Prog E R β) (s : σ) : Prop :=
  ∀ t a s₁ u b s₂, Exec env p s t a s₁ → Exec env q s u b s₂ →
    seen view t = seen view u ∧ s₂ = s₁ ∧ Q a b s₁

/-- Two executions of the program look the same and return the same. -/
def Private (env : Env σ E R) (view : E → Option Ω) (p : Prog E R α) (s : σ) : Prop :=
  ∀ t a s₁ u b s₂, Exec env p s t a s₁ → Exec env p s u b s₂ → seen view t = seen view u ∧ a = b

section
variable {env : Env σ E R} {view : E → Option Ω} {s : σ}

theorem Alike.isPrivate {p : Prog E R α} (h : Alike env view (fun a b _ => a = b) p p s) :
    Private env view p s := by
  intro t a s₁ u b s₂ hp hq
  obtain ⟨hseen, -, hab⟩ := h t a s₁ u b s₂ hp hq
  exact ⟨hseen, hab⟩

theorem Alike.mono {Q Q' : α → β → σ → Prop} (hle : ∀ a b s', Q a b s' → Q' a b s')
    {p : Prog E R α} {q : Prog E R β} (h : Alike env view Q p q s) : Alike env view Q' p q s := by
  intro t a s₁ u b s₂ hp hq
  obtain ⟨hseen, hstate, hab⟩ := h t a s₁ u b s₂ hp hq
  exact ⟨hseen, hstate, hle a b s₁ hab⟩

theorem alike_pure {Q : α → β → σ → Prop} {a : α} {b : β} (h : Q a b s) :
    Alike env view Q (pure a) (pure b) s := by
  rintro t a' s₁ u b' s₂ ⟨rfl, rfl, rfl⟩ ⟨rfl, rfl, rfl⟩
  exact ⟨rfl, rfl, h⟩

/-- One after the other. -/
theorem Alike.bind {Q : α → β → σ → Prop} {Q' : γ → δ → σ → Prop} {p : Prog E R α}
    {q : Prog E R β} {f : α → Prog E R γ} {g : β → Prog E R δ} (hp : Alike env view Q p q s)
    (hf : ∀ a b s', Q a b s' → Alike env view Q' (f a) (g b) s') :
    Alike env view Q' (p >>= f) (q >>= g) s := by
  intro t c s₁ u d s₂ ht hu
  obtain ⟨a, sₐ, t₁, t₂, rfl, hpa, hfa⟩ := (exec_bind _ _ _ _ _ _ _).mp ht
  obtain ⟨b, s_b, u₁, u₂, rfl, hqb, hgb⟩ := (exec_bind _ _ _ _ _ _ _).mp hu
  obtain ⟨hseen₁, rfl, hab⟩ := hp _ _ _ _ _ _ hpa hqb
  obtain ⟨hseen₂, hstate, hcd⟩ := hf a b _ hab _ _ _ _ _ _ hfa hgb
  rw [seen_append, seen_append, hseen₁, hseen₂]
  exact ⟨rfl, hstate, hcd⟩

/-- Behind a part with one outcome, it is the rest that has to keep the secrets. -/
theorem private_bind_iff {p : Prog E R α} {f : α → Prog E R β} {a : α} {s₁ : σ}
    {t : List (Obs σ E R)} (hexec : Exec env p s t a s₁)
    (hp : Alike env view (fun b c s' => b = a ∧ c = a ∧ s' = s₁) p p s) :
    Private env view (p >>= f) s ↔ Private env view (f a) s₁ := by
  constructor
  · intro h u b s₂ v c s₃ hu hv
    have hrun := (exec_bind _ _ _ _ _ _ _).mpr ⟨a, s₁, t, u, rfl, hexec, hu⟩
    have hrun' := (exec_bind _ _ _ _ _ _ _).mpr ⟨a, s₁, t, v, rfl, hexec, hv⟩
    obtain ⟨hseen, hbc⟩ := h _ _ _ _ _ _ hrun hrun'
    rw [seen_append, seen_append] at hseen
    exact ⟨List.append_cancel_left hseen, hbc⟩
  · intro h u b s₂ v c s₃ hu hv
    obtain ⟨a₁, sₐ, u₁, u₂, rfl, hpu, hfu⟩ := (exec_bind _ _ _ _ _ _ _).mp hu
    obtain ⟨a₂, s_b, v₁, v₂, rfl, hpv, hfv⟩ := (exec_bind _ _ _ _ _ _ _).mp hv
    obtain ⟨hseen₁, rfl, rfl, rfl, rfl⟩ := hp _ _ _ _ _ _ hpu hpv
    obtain ⟨hseen₂, hbc⟩ := h _ _ _ _ _ _ hfu hfv
    rw [seen_append, seen_append, hseen₁, hseen₂]
    exact ⟨rfl, hbc⟩

/-- A result that is only packed up differently. -/
theorem private_map_iff {f : α → β} (hf : Function.Injective f) {p : Prog E R α} :
    Private env view (p >>= fun a => pure (f a)) s ↔ Private env view p s := by
  constructor
  · intro h t a s₁ u b s₂ ht hu
    have hpack {tr : List (Obs σ E R)} {c : α} {s' : σ} (hc : Exec env p s tr c s') :
        Exec env (p >>= fun a => pure (f a)) s (tr ++ []) (f c) s' :=
      (exec_bind _ _ _ _ _ _ _).mpr ⟨c, s', tr, [], rfl, hc, rfl, rfl, rfl⟩
    obtain ⟨hseen, hab⟩ := h _ _ _ _ _ _ (hpack ht) (hpack hu)
    rw [List.append_nil, List.append_nil] at hseen
    exact ⟨hseen, hf hab⟩
  · intro h t c s₁ u d s₂ ht hu
    obtain ⟨a, s₃, t, _, rfl, hpt, rfl, rfl, rfl⟩ := (exec_bind _ _ _ _ _ _ _).mp ht
    obtain ⟨b, s₄, u, _, rfl, hpu, rfl, rfl, rfl⟩ := (exec_bind _ _ _ _ _ _ _).mp hu
    obtain ⟨hseen, rfl⟩ := h _ _ _ _ _ _ hpt hpu
    rw [List.append_nil, List.append_nil]
    exact ⟨hseen, rfl⟩

end

section
variable {h : Handler σ E R} {secret : E → Prop} {view : E → Option Ω} {s : σ}

/-- Two executions may learn different secrets. -/
theorem alike_secret {e : E} (hsecret : secret e) :
    Alike (h.hiding secret) view (fun _ _ s' => s' = s) (perform e) (perform e) s := by
  intro t r s₁ u r' s₂ ht hu
  obtain ⟨hr, rfl⟩ := (exec_perform _ _ _ _ _ _).mp ht
  obtain ⟨hr', rfl⟩ := (exec_perform _ _ _ _ _ _).mp hu
  exact ⟨rfl, (hr'.1 hsecret).trans (hr.1 hsecret).symm, hr.1 hsecret⟩

theorem alike_public {e : E} (hpublic : ¬ secret e) :
    Alike (h.hiding secret) view (fun r r' s' => h e s = (r, s') ∧ r' = r) (perform e) (perform e)
      s := by
  intro t r s₁ u r' s₂ ht hu
  obtain ⟨hr, rfl⟩ := (exec_perform _ _ _ _ _ _).mp ht
  obtain ⟨hr', rfl⟩ := (exec_perform _ _ _ _ _ _).mp hu
  have hsame := (hr.2 hpublic).symm.trans (hr'.2 hpublic)
  obtain ⟨rfl, rfl⟩ := Prod.mk.inj hsame
  exact ⟨rfl, rfl, hr.2 hpublic, rfl⟩

/-- A program that asks for no secret. -/
theorem alike_of_uses {p : Prog E R α} (huses : p.Uses fun e => ¬ secret e) (s : σ) :
    Alike (h.hiding secret) view (fun a b _ => a = b) p p s := by
  induction p generalizing s with
  | ret a => exact alike_pure rfl
  | act e k ih =>
    change Alike _ _ _ (perform e >>= k) (perform e >>= k) s
    refine (alike_public huses.1).bind fun r r' s' hr => ?_
    rw [hr.2]
    exact ih r (huses.2 r) s'

/-- A handler that agrees with `h` makes one choice of the secrets. -/
theorem exec_choice {h' : Handler σ E R} (hsecret : ∀ e s, secret e → (h' e s).2 = s)
    (hpublic : ∀ e s, ¬ secret e → h' e s = h e s) (p : Prog E R α) (s : σ) :
    Exec (h.hiding secret) p s (trace h' p s) (run h' p s).1 (run h' p s).2 := by
  refine (exec_run h' p s).mono fun s e r s' henv => ⟨fun he => ?_, fun he => ?_⟩
  · rw [← hsecret e s he, show h' e s = (r, s') from henv]
  · rw [← hpublic e s he]
    exact henv

end

end Prog

end Reasoning
