import SimuSound.Reasoning.Transition
import Mathlib.Logic.Function.Basic

/-!
# Mutex — critical sections under one lock

Every invocation takes the mutex, performs its actions one by one on its own memory and the shared
one, and releases the mutex.  Nothing but the mutex orders the actions of different invocations;
a section that has been left has nevertheless been performed as a whole, on the memory that the
sections released before it had left.
-/

namespace Reasoning

/-- An action on the invocation's own memory and the shared memory. -/
abbrev Action (τ σ : Type) := τ × σ → τ × σ

variable {ι τ σ : Type}

def performAll (actions : List (Action τ σ)) (m : τ × σ) : τ × σ :=
  actions.foldl (fun m act => act m) m

@[simp] theorem performAll_nil (m : τ × σ) : performAll [] m = m := rfl

@[simp] theorem performAll_cons (act : Action τ σ) (actions : List (Action τ σ)) (m : τ × σ) :
    performAll (act :: actions) m = performAll actions (act m) := rfl

theorem performAll_append (as bs : List (Action τ σ)) (m : τ × σ) :
    performAll (as ++ bs) m = performAll bs (performAll as m) := by
  unfold performAll
  rw [List.foldl_append]

/-- Where an invocation is: not yet in its section, in it with actions still to do, or out of it. -/
inductive Phase (τ σ : Type)
  | waiting (mem : τ)
  | inside (todo : List (Action τ σ)) (mem : τ)
  | left (mem : τ)

structure Mutex (ι τ σ : Type) where
  shared : σ
  holder : Option ι
  phase : ι → Phase τ σ

/-- The mutex is free and every invocation is before its section. -/
def Mutex.initial (shared : σ) (mem : ι → τ) : Mutex ι τ σ :=
  ⟨shared, none, fun i => .waiting (mem i)⟩

inductive LockEvent (ι : Type)
  | lock (i : ι)
  | act (i : ι)
  | unlock (i : ι)

/-- The invocation a step releases the mutex of. -/
def LockEvent.released : LockEvent ι → Option ι
  | .unlock i => some i
  | _ => none

/-- The invocations that have left their sections, in that order. -/
def releases (tr : List (Step (Mutex ι τ σ) (LockEvent ι))) : List ι :=
  tr.filterMap fun x => x.label.released

/-- The shared memory after the sections of `done`, one after the other. -/
def serial (body : ι → List (Action τ σ)) (mem : ι → τ) (shared : σ) (done : List ι) : σ :=
  done.foldl (fun shared i => (performAll (body i) (mem i, shared)).2) shared

/-- An invocation inside its section holds the mutex. -/
def Mutex.Owned (s : Mutex ι τ σ) : Prop :=
  ∀ i todo mem, s.phase i = .inside todo mem → s.holder = some i

/-- The invocation is inside its section, and its actions still to do lead to `final`. -/
def Mutex.Heading (s : Mutex ι τ σ) (i : ι) (final : τ × σ) : Prop :=
  ∃ todo mem, s.phase i = .inside todo mem ∧ performAll todo (mem, s.shared) = final

/-- The invocation will leave, or has left, its section with the outcome `final`. -/
def Committed (i : ι) (final : τ × σ) (s : Mutex ι τ σ) : Prop :=
  s.Owned ∧ (s.Heading i final ∨ s.phase i = .left final.1)

/-- The run so far is the sections of `done` one after the other, then the actions the holder has
already performed. -/
structure Mutex.Serial (body : ι → List (Action τ σ)) (mem : ι → τ) (shared : σ) (done : List ι)
    (s : Mutex ι τ σ) : Prop where
  owned : s.Owned
  waiting : ∀ i m, s.phase i = .waiting m → m = mem i
  free : s.holder = none → s.shared = serial body mem shared done
  held : ∀ i, s.holder = some i →
    s.Heading i (performAll (body i) (mem i, serial body mem shared done))

variable {body : ι → List (Action τ σ)} {mem : ι → τ} {shared : σ}

theorem serial_concat (done : List ι) (i : ι) :
    serial body mem shared (done ++ [i]) =
      (performAll (body i) (mem i, serial body mem shared done)).2 := by
  unfold serial
  rw [List.foldl_append]
  rfl

theorem owned_initial : (Mutex.initial shared mem).Owned := by
  intro i todo m h
  injection h

theorem serial_initial : (Mutex.initial shared mem).Serial body mem shared [] where
  owned := owned_initial
  waiting := fun i m h => by
    injection h with h
    exact h.symm
  free := fun _ => rfl
  held := fun i h => absurd h (by simp [Mutex.initial])

theorem releases_concat (past : List (Step (Mutex ι τ σ) (LockEvent ι)))
    (x : Step (Mutex ι τ σ) (LockEvent ι)) :
    releases (past ++ [x]) = releases past ++ x.label.released.toList := by
  unfold releases
  rw [List.filterMap_append]
  cases hl : x.label.released with
  | none => simp [hl]
  | some i => simp [hl]

variable [DecidableEq ι]

def Mutex.setPhase (s : Mutex ι τ σ) (i : ι) (p : Phase τ σ) : ι → Phase τ σ :=
  Function.update s.phase i p

/-- Only `lock` looks at the holder: an invocation inside its section acts whoever holds the
mutex. -/
inductive MutexStep (body : ι → List (Action τ σ)) :
    Mutex ι τ σ → LockEvent ι → Mutex ι τ σ → Prop
  | lock (s : Mutex ι τ σ) (i : ι) (mem : τ) (hfree : s.holder = none)
      (hphase : s.phase i = .waiting mem) :
      MutexStep body s (.lock i)
        { s with holder := some i, phase := s.setPhase i (.inside (body i) mem) }
  | act (s : Mutex ι τ σ) (i : ι) (act : Action τ σ) (todo : List (Action τ σ)) (mem : τ)
      (hphase : s.phase i = .inside (act :: todo) mem) :
      MutexStep body s (.act i)
        { s with shared := (act (mem, s.shared)).2
                 phase := s.setPhase i (.inside todo (act (mem, s.shared)).1) }
  | unlock (s : Mutex ι τ σ) (i : ι) (mem : τ) (hphase : s.phase i = .inside [] mem) :
      MutexStep body s (.unlock i) { s with holder := none, phase := s.setPhase i (.left mem) }

variable {s s' : Mutex ι τ σ} {l : LockEvent ι} {i : ι}

theorem setPhase_self (p : Phase τ σ) : s.setPhase i p i = p := by
  unfold Mutex.setPhase
  exact Function.update_self i p s.phase

theorem setPhase_of_ne {j : ι} (h : j ≠ i) (p : Phase τ σ) : s.setPhase i p j = s.phase j := by
  unfold Mutex.setPhase
  exact Function.update_of_ne h p s.phase

/-! ## Ownership -/

theorem holder_of_lock (h : MutexStep body s (.lock i) s') : s'.holder = some i := by
  cases h with
  | lock => rfl

theorem owned_step (howned : s.Owned) (h : MutexStep body s l s') : s'.Owned := by
  intro j todo m hj
  cases h with
  | lock i _ hfree hphase =>
    by_cases hji : j = i
    · rw [hji]
    · -- nobody was inside while the mutex was free
      simp only [setPhase_of_ne hji] at hj
      have hholder := howned j todo m hj
      rw [hfree] at hholder
      exact absurd hholder (by simp)
  | act i _ _ _ hphase =>
    by_cases hji : j = i
    · rw [hji]
      exact howned i _ _ hphase
    · simp only [setPhase_of_ne hji] at hj
      exact howned j todo m hj
  | unlock i _ hphase =>
    by_cases hji : j = i
    · simp only [hji, setPhase_self] at hj
      injection hj
    · simp only [setPhase_of_ne hji] at hj
      have hholder := howned j todo m hj
      rw [howned i _ _ hphase] at hholder
      exact absurd (Option.some.inj hholder).symm hji

/-! ## One section -/

/-- From the moment the mutex is taken until it is released only the holder's actions count. -/
theorem heading_step {final : τ × σ} (howned : s.Owned) (hheading : s.Heading i final)
    (h : MutexStep body s l s') :
    s'.Heading i final ∨ l = .unlock i ∧ s'.phase i = .left final.1 ∧ s'.shared = final.2 := by
  obtain ⟨todo, m, hi, hfinal⟩ := hheading
  have hholder := howned i todo m hi
  cases h with
  | lock j _ hfree hphase =>
    rw [hholder] at hfree
    exact absurd hfree (by simp)
  | act j act rest _ hphase =>
    -- the acting invocation holds the mutex, so it is `i`
    have hji : i = j := Option.some.inj (hholder.symm.trans (howned j _ _ hphase))
    subst hji
    rw [hi] at hphase
    injection hphase with htodo hm
    subst htodo hm
    exact Or.inl ⟨rest, _, setPhase_self _, hfinal⟩
  | unlock j _ hphase =>
    have hji : i = j := Option.some.inj (hholder.symm.trans (howned j _ _ hphase))
    subst hji
    rw [hi] at hphase
    injection hphase with htodo hm
    subst htodo hm
    rw [performAll_nil] at hfinal
    subst hfinal
    exact Or.inr ⟨rfl, setPhase_self _, rfl⟩

/-- An invocation that has left its section stays out of it. -/
theorem left_step {m : τ} (hleft : s.phase i = .left m) (h : MutexStep body s l s') :
    s'.phase i = .left m := by
  have hne : ∀ {j}, s.phase j ≠ .left m → i ≠ j := by
    intro j hj hij
    rw [← hij] at hj
    exact hj hleft
  cases h with
  | lock j _ _ hphase => exact (setPhase_of_ne (hne (by rw [hphase]; simp)) _).trans hleft
  | act j _ _ _ hphase => exact (setPhase_of_ne (hne (by rw [hphase]; simp)) _).trans hleft
  | unlock j _ hphase => exact (setPhase_of_ne (hne (by rw [hphase]; simp)) _).trans hleft

theorem committed_step {final : τ × σ} (hs : Committed i final s) (h : MutexStep body s l s') :
    Committed i final s' := by
  obtain ⟨howned, hs⟩ := hs
  refine ⟨owned_step howned h, ?_⟩
  rcases hs with hheading | hleft
  · exact (heading_step howned hheading h).imp_right fun hdone => hdone.2.1
  · exact Or.inr (left_step hleft h)

/-! ## Runs -/

theorem waiting_step (hwaiting : ∀ i m, s.phase i = .waiting m → m = mem i)
    (h : MutexStep body s l s') : ∀ i m, s'.phase i = .waiting m → m = mem i := by
  intro j m hj
  have hne : ∀ {i p}, (∀ m, p ≠ Phase.waiting m) → s.setPhase i p j = .waiting m → m = mem j := by
    intro i p hp hset
    by_cases hji : j = i
    · rw [hji, setPhase_self] at hset
      exact absurd hset (hp m)
    · rw [setPhase_of_ne hji] at hset
      exact hwaiting j m hset
  cases h with
  | lock => exact hne (by simp) hj
  | act => exact hne (by simp) hj
  | unlock => exact hne (by simp) hj

theorem serial_step {done : List ι} (hs : s.Serial body mem shared done)
    (h : MutexStep body s l s') :
    s'.Serial body mem shared (done ++ l.released.toList) := by
  refine ⟨owned_step hs.owned h, waiting_step hs.waiting h, ?_, ?_⟩
  · intro hfree
    cases h with
    | lock => exact absurd hfree (by simp)
    | act i _ _ _ hphase =>
      have hholder := hs.owned i _ _ hphase
      rw [show s.holder = none from hfree] at hholder
      exact absurd hholder (by simp)
    | unlock i m hphase =>
      -- the holder leaves with nothing to do: its section has been performed
      obtain ⟨todo, m', hi, hfinal⟩ := hs.held i (hs.owned i _ _ hphase)
      rw [hphase] at hi
      injection hi with htodo hm
      subst htodo hm
      rw [show (LockEvent.unlock i).released.toList = [i] from rfl, serial_concat, ← hfinal]
      rfl
  · intro j hj
    cases h with
    | lock i m hfree hphase =>
      rw [show j = i from (Option.some.inj hj).symm, hs.waiting i m hphase]
      rw [show (LockEvent.lock i).released.toList = [] from rfl, List.append_nil]
      exact ⟨body i, mem i, setPhase_self _, by rw [← hs.free hfree]⟩
    | act i act todo m hphase =>
      have hstep : MutexStep body s (.act i) _ := .act s i act todo m hphase
      rcases heading_step hs.owned (hs.held j hj) hstep with hheading | ⟨hl, -⟩
      · rw [show (LockEvent.act i).released.toList = [] from rfl, List.append_nil]
        exact hheading
      · exact absurd hl (by simp)
    | unlock => exact absurd hj (by simp)

theorem Run.serial {tr : List (Step (Mutex ι τ σ) (LockEvent ι))}
    (hrun : Run (MutexStep body) (Mutex.initial shared mem) tr s') :
    s'.Serial body mem shared (releases tr) := by
  apply hrun.history serial_initial
  intro past x hpast hstep
  rw [releases_concat]
  exact serial_step hpast hstep

/-- An invocation that has left its section has performed it, as if alone, on the shared memory
that the sections released before it took the mutex had left. -/
theorem Run.left_serial {pre post : List (Step (Mutex ι τ σ) (LockEvent ι))}
    {x : Step (Mutex ι τ σ) (LockEvent ι)} {m : τ}
    (hrun : Run (MutexStep body) (Mutex.initial shared mem) (pre ++ x :: post) s')
    (hlock : x.label = .lock i) (hleft : s'.phase i = .left m) :
    m = (performAll (body i) (mem i, Reasoning.serial body mem shared (releases pre))).1 := by
  obtain ⟨s₁, hpre, rfl, hstep, hpost⟩ := run_append.mp hrun
  have hs := serial_step hpre.serial hstep
  rw [hlock] at hs hstep
  have hheading := hs.held i (holder_of_lock hstep)
  rw [show (LockEvent.lock i).released.toList = [] from rfl, List.append_nil] at hheading
  have hcommitted : Committed i _ x.post := ⟨hs.owned, Or.inl hheading⟩
  have hend := (hpost.invariant hcommitted fun y _ hy hystep => committed_step hy hystep).1
  rcases hend.2 with ⟨todo, m', hinside, -⟩ | hdone
  · rw [hleft] at hinside
    injection hinside
  · rw [hleft] at hdone
    injection hdone

/-! ## Sections that run to their end -/

/-- An invocation inside its section can finish it. -/
theorem run_inside {todo : List (Action τ σ)} {m : τ} (hphase : s.phase i = .inside todo m) :
    ∃ tr s', Run (MutexStep body) s tr s' ∧ releases tr = [i] ∧ s'.holder = none ∧
      s'.shared = (performAll todo (m, s.shared)).2 ∧
      s'.phase = s.setPhase i (.left (performAll todo (m, s.shared)).1) := by
  induction todo generalizing s m with
  | nil => exact ⟨[⟨s, .unlock i, _⟩], _, ⟨rfl, .unlock s i m hphase, rfl⟩, rfl, rfl, rfl, rfl⟩
  | cons act todo ih =>
    let s₁ : Mutex ι τ σ := { s with shared := (act (m, s.shared)).2
                                     phase := s.setPhase i (.inside todo (act (m, s.shared)).1) }
    have hstep : MutexStep body s (.act i) s₁ := .act s i act todo m hphase
    have hs₁ : s₁.phase i = .inside todo (act (m, s.shared)).1 := setPhase_self _
    obtain ⟨tr, s', hrun, hreleases, hfree, hshared, hleft⟩ := ih hs₁
    refine ⟨⟨s, .act i, s₁⟩ :: tr, s', ⟨rfl, hstep, hrun⟩, hreleases, hfree, hshared, ?_⟩
    rw [hleft]
    exact Function.update_idem _ _ _

/-- While the mutex is free, an invocation that has not run yet can run from its lock to its
unlock. -/
theorem run_section (body : ι → List (Action τ σ)) (i : ι) {m : τ} (hfree : s.holder = none)
    (hphase : s.phase i = .waiting m) :
    ∃ s₁ tr s', Run (MutexStep body) s (⟨s, .lock i, s₁⟩ :: tr) s' ∧
      releases (⟨s, .lock i, s₁⟩ :: tr) = [i] ∧
      s'.holder = none ∧ s'.shared = (performAll (body i) (m, s.shared)).2 ∧
      s'.phase = s.setPhase i (.left (performAll (body i) (m, s.shared)).1) := by
  let s₁ : Mutex ι τ σ := { s with holder := some i
                                   phase := s.setPhase i (.inside (body i) m) }
  have hstep : MutexStep body s (.lock i) s₁ := .lock s i m hfree hphase
  have hs₁ : s₁.phase i = .inside (body i) m := setPhase_self _
  obtain ⟨tr, s', hrun, hreleases, hfree', hshared, hleft⟩ := run_inside hs₁
  refine ⟨s₁, tr, s', ⟨rfl, hstep, hrun⟩, hreleases, hfree', hshared, ?_⟩
  rw [hleft]
  exact Function.update_idem _ _ _

end Reasoning
