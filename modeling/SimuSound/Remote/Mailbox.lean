import SimuSound.Reasoning.Transition
import SimuSound.Remote.BtThread
import Mathlib.Logic.Function.Basic

/-!
# Mailbox — `data_in` between the reader thread and `get_data`

The reader appends a batch without taking the mutex.  `get_data` copies `data_in` under the mutex
and clears it after the unlock, so appends, and other calls, can fall between the two.
-/

namespace SimuSound.Remote

open Reasoning

/-- `data_in`, the copies of the `get_data` calls in progress, and what was appended and returned so
far, in order. -/
structure Mailbox where
  dataIn : List Line
  inProgress : Nat → Option (List Line)
  appended : List Line
  returned : List Line

namespace Mailbox

def initial : Mailbox := ⟨[], fun _ => none, [], []⟩

/-- The reader's append of one batch, and the two steps of the `get_data` call `call`. -/
inductive Label
  | append (batch : List Line)
  | copy (call : Nat)
  | clear (call : Nat)

def append (s : Mailbox) (batch : List Line) : Mailbox :=
  { s with dataIn := s.dataIn ++ batch, appended := s.appended ++ batch }

/-- `std::vector<std::string> data(this->data_in)` between lock and unlock. -/
def copy (s : Mailbox) (call : Nat) : Mailbox :=
  { s with inProgress := Function.update s.inProgress call (some s.dataIn) }

/-- `this->data_in.clear(); return data;` -/
def clear (s : Mailbox) (call : Nat) (data : List Line) : Mailbox :=
  { s with
    dataIn := []
    inProgress := Function.update s.inProgress call none
    returned := s.returned ++ data }

def step (s : Mailbox) : Label → Mailbox → Prop
  | .append batch, s' => s' = s.append batch
  | .copy call, s' => s.inProgress call = none ∧ s' = s.copy call
  | .clear call, s' => ∃ data, s.inProgress call = some data ∧ s' = s.clear call data

/-- No `get_data` is in progress. -/
def Quiescent (s : Mailbox) : Prop := ∀ call, s.inProgress call = none

/-- Everything appended was returned or is still there, once and in order. -/
def Complete (s : Mailbox) : Prop := s.returned ++ s.dataIn = s.appended

instance (s : Mailbox) : Decidable s.Complete := inferInstanceAs (Decidable (_ = _))

/-- A batch arriving while a call is in progress is empty, and a call that starts while another is
in progress finds nothing. -/
def Apart (s : Mailbox) : Label → Prop
  | .append batch => batch = [] ∨ s.Quiescent
  | .copy _ => s.dataIn = [] ∨ s.Quiescent
  | .clear _ => True

/-- No call starts while another is in progress. -/
def Serial (s : Mailbox) : Label → Prop
  | .copy _ => s.Quiescent
  | _ => True

theorem Quiescent.not_inProgress {s : Mailbox} (hq : s.Quiescent) {call : Nat} {data : List Line}
    (hd : s.inProgress call = some data) : False := by
  rw [hq call] at hd
  cases hd

theorem append_nil (s : Mailbox) : s.append [] = s := by
  unfold append
  rw [List.append_nil, List.append_nil]

theorem Complete.append {s : Mailbox} (h : s.Complete) (batch : List Line) :
    (s.append batch).Complete := by
  unfold Complete Mailbox.append at *
  rw [← List.append_assoc, h]

theorem inProgress_copy {s : Mailbox} {call c : Nat} {data : List Line}
    (h : (s.copy call).inProgress c = some data) :
    (c = call ∧ data = s.dataIn) ∨ (c ≠ call ∧ s.inProgress c = some data) := by
  unfold copy at h
  by_cases hc : c = call
  · subst hc
    simp only [Function.update_self, Option.some.injEq] at h
    exact Or.inl ⟨rfl, h.symm⟩
  · simp only [Function.update_of_ne hc] at h
    exact Or.inr ⟨hc, h⟩

theorem inProgress_clear {s : Mailbox} {call c : Nat} {old data : List Line}
    (h : (s.clear call old).inProgress c = some data) :
    c ≠ call ∧ s.inProgress c = some data := by
  unfold clear at h
  by_cases hc : c = call
  · subst hc
    simp only [Function.update_self, reduceCtorEq] at h
  · simp only [Function.update_of_ne hc] at h
    exact ⟨hc, h⟩

/-! ## Runs without interference -/

/-- Nothing is lost so far, every call in progress holds what `data_in` holds, and two calls in
progress hold nothing. -/
structure Undisturbed (s : Mailbox) : Prop where
  complete : s.Complete
  copies : ∀ call data, s.inProgress call = some data → data = s.dataIn
  shared : ∀ c₁ c₂ d₁ d₂, c₁ ≠ c₂ → s.inProgress c₁ = some d₁ → s.inProgress c₂ = some d₂ →
    s.dataIn = []

theorem initial_quiescent : initial.Quiescent := fun _ => rfl

theorem initial_undisturbed : initial.Undisturbed :=
  ⟨rfl, fun _ _ hd => (initial_quiescent.not_inProgress hd).elim,
    fun _ _ _ _ _ hd => (initial_quiescent.not_inProgress hd).elim⟩

theorem Undisturbed.append {s : Mailbox} (h : s.Undisturbed) {batch : List Line}
    (hq : s.Quiescent) : (s.append batch).Undisturbed := by
  refine ⟨h.complete.append batch, fun call data hd => ?_, fun c₁ _ d₁ _ _ hd _ => ?_⟩
  · exact (hq.not_inProgress hd).elim
  · exact (hq.not_inProgress hd).elim

theorem Undisturbed.copy {s : Mailbox} (h : s.Undisturbed) {call : Nat}
    (hapart : s.dataIn = [] ∨ s.Quiescent) : (s.copy call).Undisturbed := by
  refine ⟨h.complete, fun c data hd => ?_, fun c₁ c₂ d₁ d₂ hne h₁ h₂ => ?_⟩
  · rcases inProgress_copy hd with ⟨-, rfl⟩ | ⟨-, hold⟩
    · rfl
    · exact h.copies c data hold
  · rcases hapart with hempty | hq
    · exact hempty
    · rcases inProgress_copy h₁ with ⟨he₁, -⟩ | ⟨-, hold⟩
      · rcases inProgress_copy h₂ with ⟨he₂, -⟩ | ⟨-, hold⟩
        · exact absurd (he₁.trans he₂.symm) hne
        · exact (hq.not_inProgress hold).elim
      · exact (hq.not_inProgress hold).elim

theorem Undisturbed.clear {s : Mailbox} (h : s.Undisturbed) {call : Nat} {data : List Line}
    (hdata : s.inProgress call = some data) : (s.clear call data).Undisturbed := by
  have heq : data = s.dataIn := h.copies call data hdata
  refine ⟨?_, fun c other hd => ?_, fun _ _ _ _ _ _ _ => rfl⟩
  · have hc := h.complete
    unfold Complete Mailbox.clear at *
    rw [List.append_nil, heq, hc]
  · obtain ⟨hne, hold⟩ := inProgress_clear hd
    rw [h.copies c other hold]
    exact h.shared c call other data hne hold hdata

theorem Undisturbed.step {s s' : Mailbox} {l : Label} (h : s.Undisturbed) (hapart : s.Apart l)
    (hstep : s.step l s') : s'.Undisturbed := by
  cases l with
  | append batch =>
    rw [show s' = s.append batch from hstep]
    rcases hapart with rfl | hq
    · rw [append_nil]
      exact h
    · exact h.append hq
  | copy call =>
    rw [show s' = s.copy call from hstep.2]
    exact h.copy hapart
  | clear call =>
    obtain ⟨data, hdata, rfl⟩ := hstep
    exact h.clear hdata

/-! ## Serial calls -/

/-- At most one call is in progress, and what it copied is still the front of `data_in`. -/
structure OneCall (s : Mailbox) : Prop where
  complete : s.Complete
  front : ∀ call data, s.inProgress call = some data → ∃ later, s.dataIn = data ++ later
  single : ∀ c₁ c₂ d₁ d₂, s.inProgress c₁ = some d₁ → s.inProgress c₂ = some d₂ → c₁ = c₂

theorem OneCall.append {s : Mailbox} (h : s.OneCall) (batch : List Line) :
    (s.append batch).OneCall := by
  refine ⟨h.complete.append batch, fun call data hd => ?_, h.single⟩
  obtain ⟨later, hlater⟩ := h.front call data hd
  refine ⟨later ++ batch, ?_⟩
  unfold Mailbox.append
  rw [hlater, List.append_assoc]

theorem OneCall.copy {s : Mailbox} (h : s.OneCall) (hq : s.Quiescent) (call : Nat) :
    (s.copy call).OneCall := by
  refine ⟨h.complete, fun c data hd => ?_, fun c₁ c₂ d₁ d₂ h₁ h₂ => ?_⟩
  · rcases inProgress_copy hd with ⟨-, rfl⟩ | ⟨-, hold⟩
    · exact ⟨[], (List.append_nil _).symm⟩
    · exact (hq.not_inProgress hold).elim
  · rcases inProgress_copy h₁ with ⟨he₁, -⟩ | ⟨-, hold⟩
    · rcases inProgress_copy h₂ with ⟨he₂, -⟩ | ⟨-, hold⟩
      · exact he₁.trans he₂.symm
      · exact (hq.not_inProgress hold).elim
    · exact (hq.not_inProgress hold).elim

theorem OneCall.quiescent_clear {s : Mailbox} (h : s.OneCall) {call : Nat} {data : List Line}
    (hdata : s.inProgress call = some data) : (s.clear call data).Quiescent := by
  intro c
  by_contra hne
  obtain ⟨other, hother⟩ := Option.ne_none_iff_exists'.mp hne
  obtain ⟨hc, hold⟩ := inProgress_clear hother
  exact hc (h.single c call other data hold hdata)

theorem OneCall.of_quiescent {s : Mailbox} (hq : s.Quiescent) (hc : s.Complete) : s.OneCall :=
  ⟨hc, fun _ _ hd => (hq.not_inProgress hd).elim, fun _ _ _ _ hd _ => (hq.not_inProgress hd).elim⟩

/-- Every call in progress holds all of `data_in`. -/
def Covered (s : Mailbox) : Prop :=
  ∀ call data, s.inProgress call = some data → data = s.dataIn

theorem Quiescent.covered {s : Mailbox} (hq : s.Quiescent) : s.Covered :=
  fun _ _ hd => (hq.not_inProgress hd).elim

theorem OneCall.step {s s' : Mailbox} {l : Label} (h : s.OneCall) (hstep : s.step l s')
    (hserial : s.Serial l) (hcomplete : s'.Quiescent → s'.Complete) : s'.OneCall := by
  cases l with
  | append batch =>
    rw [show s' = s.append batch from hstep]
    exact h.append batch
  | copy call =>
    rw [show s' = s.copy call from hstep.2]
    exact h.copy hserial call
  | clear call =>
    obtain ⟨data, hdata, rfl⟩ := hstep
    have hq := h.quiescent_clear hdata
    exact .of_quiescent hq (hcomplete hq)

/-- What was copied is all of `data_in` even after the append, so it was so before, and the batch
was empty. -/
theorem OneCall.append_back {s : Mailbox} (h : s.OneCall) {batch : List Line}
    (hafter : (s.append batch).Covered) : s.Covered ∧ s.Apart (.append batch) := by
  have hall : ∀ call data, s.inProgress call = some data → data = s.dataIn ∧ batch = [] := by
    intro call data hd
    obtain ⟨later, hlater⟩ := h.front call data hd
    have hwhole : data = s.dataIn ++ batch := hafter call data hd
    rw [hlater, List.append_assoc, List.self_eq_append_right, List.append_eq_nil_iff] at hwhole
    rw [hlater, hwhole.1, List.append_nil]
    exact ⟨rfl, hwhole.2⟩
  refine ⟨fun call data hd => (hall call data hd).1, ?_⟩
  by_cases hb : batch = []
  · exact Or.inl hb
  · refine Or.inr fun call => ?_
    by_contra hne
    obtain ⟨data, hd⟩ := Option.ne_none_iff_exists'.mp hne
    exact hb (hall call data hd).2

/-- A clear that leaves nothing behind belongs to a call that has copied everything. -/
theorem OneCall.clear_back {s : Mailbox} (h : s.OneCall) {call : Nat} {data : List Line}
    (hdata : s.inProgress call = some data) (hc : (s.clear call data).Complete) : s.Covered := by
  have hall : data = s.dataIn := by
    have hbefore := h.complete
    unfold Complete at hc hbefore
    unfold Mailbox.clear at hc
    rw [List.append_nil] at hc
    exact List.append_cancel_left (hc.trans hbefore.symm)
  intro c other hd
  have hsame := h.single c call other data hd hdata
  subst hsame
  rw [hd] at hdata
  exact (Option.some.inj hdata).trans hall

theorem OneCall.step_back {s s' : Mailbox} {l : Label} (h : s.OneCall) (hstep : s.step l s')
    (hserial : s.Serial l) (hcomplete : s'.Quiescent → s'.Complete) (hafter : s'.Covered) :
    s.Covered ∧ s.Apart l := by
  cases l with
  | append batch =>
    rw [show s' = s.append batch from hstep] at hafter
    exact h.append_back hafter
  | copy call =>
    have hq : s.Quiescent := hserial
    exact ⟨hq.covered, Or.inr hq⟩
  | clear call =>
    obtain ⟨data, hdata, rfl⟩ := hstep
    exact ⟨h.clear_back hdata (hcomplete (h.quiescent_clear hdata)), trivial⟩

/-- In a serial run that ends with no call in progress and is complete whenever none is, every
append met the condition; and a call in progress at the start of the run holds all of `data_in`. -/
theorem OneCall.run_apart {s s' : Mailbox} {tr : List (Step Mailbox Label)} (h : s.OneCall)
    (hrun : Run Mailbox.step s tr s') (hend : s'.Quiescent)
    (hserial : ∀ x ∈ tr, x.pre.Serial x.label)
    (hcomplete : ∀ x ∈ tr, x.post.Quiescent → x.post.Complete) :
    s.Covered ∧ ∀ x ∈ tr, x.pre.Apart x.label := by
  -- on the run, from its end: what a call copied is known to be everything once it has returned
  induction tr generalizing s with
  | nil =>
    rw [run_nil] at hrun
    subst hrun
    exact ⟨hend.covered, fun x hx => absurd hx List.not_mem_nil⟩
  | cons y tr ih =>
    obtain ⟨s₁, l, s₂⟩ := y
    obtain ⟨hpre, hstep, hrun⟩ := hrun
    obtain rfl : s₁ = s := hpre
    have hserialₗ : s₁.Serial l := hserial _ List.mem_cons_self
    have hcompleteₗ : s₂.Quiescent → s₂.Complete := hcomplete _ List.mem_cons_self
    obtain ⟨hafter, hrest⟩ := ih (h.step hstep hserialₗ hcompleteₗ) hrun
      (fun x hx => hserial x (List.mem_cons_of_mem _ hx))
      (fun x hx => hcomplete x (List.mem_cons_of_mem _ hx))
    obtain ⟨hcovered, hapart⟩ := h.step_back hstep hserialₗ hcompleteₗ hafter
    exact ⟨hcovered, List.forall_mem_cons.mpr ⟨hapart, hrest⟩⟩

/-! ## Exactly once -/

/-- A line appended between the copy and the clear of one call is lost. -/
theorem append_between_copy_and_clear_is_lost :
    ¬ ∀ (tr : List (Step Mailbox Label)) (s' : Mailbox), Run step initial tr s' →
      s'.Quiescent → s'.Complete := by
  intro h
  let s₁ := initial.copy 0
  let s₂ := s₁.append [[0x61]]
  let s₃ := s₂.clear 0 []
  have hrun : Run step initial [⟨initial, .copy 0, s₁⟩, ⟨s₁, .append [[0x61]], s₂⟩,
      ⟨s₂, .clear 0, s₃⟩] s₃ :=
    ⟨rfl, ⟨rfl, rfl⟩, rfl, rfl, rfl, ⟨[], rfl, rfl⟩, rfl⟩
  have hquiet : s₃.Quiescent := by
    intro call
    by_cases hc : call = 0
    · rw [hc]
      rfl
    · simp only [s₃, s₂, s₁, clear, append, copy, initial, Function.update_of_ne hc]
  exact absurd (h _ _ hrun hquiet) (by decide)

/-- While appends and calls keep apart nothing is lost or duplicated, in any interleaving; and when
the calls are serial and all have returned, keeping apart is also necessary. -/
theorem complete_of_apart {tr : List (Step Mailbox Label)} {s' : Mailbox}
    (hrun : Run step initial tr s') :
    ((∀ x ∈ tr, x.pre.Apart x.label) →
      s'.Complete ∧ ∀ x ∈ tr, x.pre.Complete ∧ x.post.Complete) ∧
    ((∀ x ∈ tr, x.pre.Serial x.label) → s'.Quiescent →
      ((∀ x ∈ tr, x.post.Quiescent → x.post.Complete) ↔ ∀ x ∈ tr, x.pre.Apart x.label)) := by
  have hsuff : (∀ x ∈ tr, x.pre.Apart x.label) →
      s'.Complete ∧ ∀ x ∈ tr, x.pre.Complete ∧ x.post.Complete := by
    intro hapart
    have hinv := hrun.invariant initial_undisturbed fun x hx h hstep => h.step (hapart x hx) hstep
    exact ⟨hinv.1.complete, fun x hx => ⟨(hinv.2 x hx).1.complete, (hinv.2 x hx).2.complete⟩⟩
  refine ⟨hsuff, fun hserial hend => ⟨fun hcomplete => ?_, fun hapart x hx _ => ?_⟩⟩
  · have hstart : initial.OneCall := .of_quiescent initial_quiescent rfl
    exact (hstart.run_apart hrun hend hserial hcomplete).2
  · exact ((hsuff hapart).2 x hx).2

theorem complete_of_apart_once :
    let s₁ := initial.append [[0x61]]
    let s₂ := s₁.copy 0
    let s₃ := s₂.clear 0 [[0x61]]
    s₃.Complete :=
  ((@complete_of_apart [⟨initial, .append [[0x61]], _⟩, ⟨_, .copy 0, _⟩, ⟨_, .clear 0, _⟩] _
    ⟨rfl, rfl, rfl, ⟨rfl, rfl⟩, rfl, ⟨_, rfl, rfl⟩, rfl⟩).1
    (by simp [Apart, Quiescent, initial])).1

end Mailbox

end SimuSound.Remote
