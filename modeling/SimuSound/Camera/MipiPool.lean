import SimuSound.Reasoning.Interaction
import SimuSound.Reasoning.Transition
import Mathlib.Data.List.FinRange

/-!
# MipiPool — who owns the buffer headers of the MIPI camera

The splitter's output port, the pool's queue and the running callback pass `n` buffer headers among
one another.  The callback releases the header it was given, takes one from the queue and sends it
to the port; what it still holds when it returns is held by nobody.
-/

namespace SimuSound.Camera

open Reasoning

abbrev Header (n : Nat) := Fin n

/-- `MMAL_STATUS_T`; only the comparison with `MMAL_SUCCESS` matters. -/
abbrev MmalStatus := BitVec 32
def mmalSuccess : MmalStatus := 0

/-- The calls into MMAL that move headers or decide where they go. -/
inductive MmalEvent (n : Nat)
  | bufferHeaderRelease (buffer : Header n)
  | portIsEnabled
  | queueLength
  | queueGet
  | portSendBuffer (buffer : Header n)

@[reducible] def MmalEvent.Resp {n : Nat} : MmalEvent n → Type
  | .bufferHeaderRelease _ => Unit
  | .portIsEnabled => Bool
  | .queueLength => Nat
  | .queueGet => Option (Header n)
  | .portSendBuffer _ => MmalStatus

abbrev Mmal (n : Nat) := Prog (MmalEvent n) MmalEvent.Resp

variable {n : Nat}

def mmalBufferHeaderRelease (buffer : Header n) : Mmal n Unit :=
  Prog.perform (MmalEvent.bufferHeaderRelease buffer)
def mmalPortIsEnabled : Mmal n Bool := Prog.perform MmalEvent.portIsEnabled
def mmalQueueLength : Mmal n Nat := Prog.perform MmalEvent.queueLength
def mmalQueueGet : Mmal n (Option (Header n)) := Prog.perform MmalEvent.queueGet
def mmalPortSendBuffer (buffer : Header n) : Mmal n MmalStatus :=
  Prog.perform (MmalEvent.portSendBuffer buffer)

/-- `video_buffer_callback`, less the copying of the frame. -/
def videoBufferCallback (buffer : Header n) : Mmal n Unit := do
  mmalBufferHeaderRelease buffer
  if ← mmalPortIsEnabled then
    match ← mmalQueueGet with
    | none => pure ()
    | some newBuffer =>
      let _status ← mmalPortSendBuffer newBuffer
      pure ()

/-- The loop of `initialize_cameras` that sends the buffers of the pool to the port, `left` of them
still to go. -/
def sendBuffers : Nat → Mmal n Int
  | 0 => pure 0
  | left + 1 => do
    match ← mmalQueueGet with
    | none => pure (-1)
    | some buffer =>
      let status ← mmalPortSendBuffer buffer
      if status ≠ mmalSuccess then pure (-1) else sendBuffers left

def sendAllBuffers : Mmal n Int := do
  let num ← mmalQueueLength
  sendBuffers num

/-! ## MMAL -/

/-- Where the headers are: the pool's queue, the port, and the hands of the running callback. -/
structure Pool (n : Nat) where
  queue : List (Header n)
  port : List (Header n)
  hands : List (Header n)

/-- The pool as `mmal_port_pool_create` leaves it. -/
def Pool.created (n : Nat) : Pool n := ⟨List.finRange n, [], []⟩

/-- A release returns the header to the queue, a get removes one if there is any, and a send moves
the header to the port when it succeeds and leaves it with the caller when it fails. -/
def mmalEnv : Env (Pool n) (MmalEvent n) MmalEvent.Resp := fun s e r s' =>
  match e, r with
  | .bufferHeaderRelease b, _ => s' = { s with queue := s.queue ++ [b], hands := s.hands.erase b }
  | .portIsEnabled, _ => s' = s
  | .queueLength, (len : Nat) => len = s.queue.length ∧ s' = s
  | .queueGet, (none : Option (Header n)) => s.queue = [] ∧ s' = s
  | .queueGet, (some b : Option (Header n)) =>
    ∃ rest, s.queue = b :: rest ∧ s' = { s with queue := rest, hands := b :: s.hands }
  | .portSendBuffer b, (status : MmalStatus) =>
    s' = if status = mmalSuccess then { s with port := b :: s.port, hands := s.hands.erase b }
      else s

/-- Every header is in exactly one of the queue, the port and the callback's hands. -/
def Pool.Conserved (s : Pool n) : Prop :=
  ∀ h : Header n, s.queue.count h + s.port.count h + s.hands.count h = 1

instance (s : Pool n) : Decidable s.Conserved := inferInstanceAs (Decidable (∀ _, _))

abbrev MmalTrace (n : Nat) := List (Obs (Pool n) (MmalEvent n) MmalEvent.Resp)

/-- One invocation of the callback: MMAL takes `buffer` from the port and puts it in the callback's
hands; `calls` are the MMAL calls the callback then makes. -/
structure Invocation (n : Nat) where
  buffer : Header n
  calls : MmalTrace n

def Pool.handOver (s : Pool n) (buffer : Header n) : Pool n :=
  { s with port := s.port.erase buffer, hands := [buffer] }

def invoke (s : Pool n) (i : Invocation n) (s' : Pool n) : Prop :=
  i.buffer ∈ s.port ∧
    Prog.Exec mmalEnv (videoBufferCallback i.buffer) (s.handOver i.buffer) i.calls () s'

/-- No send of the invocation fails. -/
def Invocation.SendsSucceed (i : Invocation n) : Prop :=
  ∀ o ∈ i.calls, match o with
    | ⟨_, .portSendBuffer _, (status : MmalStatus)⟩ => status = mmalSuccess
    | _ => True

/-- Headers are conserved all through the invocation, and none stays with the callback. -/
def Invocation.Conserves (i : Invocation n) (s' : Pool n) : Prop :=
  (∀ o ∈ i.calls, o.pre.Conserved) ∧ s'.Conserved ∧ s'.hands = []

/-! ## One invocation -/

theorem conserved_handOver {s : Pool n} (h : s.Conserved) (hhands : s.hands = [])
    {buffer : Header n} (hport : buffer ∈ s.port) : (s.handOver buffer).Conserved := by
  intro x
  have hx := h x
  have hpos := List.count_pos_iff.mpr hport
  rw [hhands, List.count_nil] at hx
  unfold Pool.handOver
  simp only [List.count_erase, List.count_singleton]
  by_cases hb : buffer = x
  · subst hb
    simp only [beq_self_eq_true, if_true]
    omega
  · simp only [beq_iff_eq, hb, if_false]
    omega

theorem conserved_release {s : Pool n} {b : Header n} (h : s.Conserved) (hhands : s.hands = [b]) :
    Pool.Conserved { s with queue := s.queue ++ [b], hands := [] } := by
  intro x
  have hx := h x
  rw [hhands] at hx
  simp only [List.count_append, List.count_nil]
  omega

theorem conserved_get {s : Pool n} {b : Header n} {rest : List (Header n)} (h : s.Conserved)
    (hqueue : s.queue = b :: rest) :
    Pool.Conserved { s with queue := rest, hands := b :: s.hands } := by
  intro x
  have hx := h x
  rw [hqueue, List.count_cons] at hx
  simp only [List.count_cons]
  omega

theorem conserved_send {s : Pool n} {b : Header n} {others : List (Header n)} (h : s.Conserved)
    (hhands : s.hands = b :: others) :
    Pool.Conserved { s with port := b :: s.port, hands := others } := by
  intro x
  have hx := h x
  rw [hhands, List.count_cons] at hx
  simp only [List.count_cons]
  omega

/-- What an invocation does, from the state in which the callback holds just its header: released
only, exchanged for the head of the queue, or stuck with the head of the queue. -/
theorem exec_videoBufferCallback {b : Header n} {s s' : Pool n} {tr : MmalTrace n}
    (hhands : s.hands = [b]) (h : Prog.Exec mmalEnv (videoBufferCallback b) s tr () s') :
    let s₁ : Pool n := { s with queue := s.queue ++ [b], hands := [] }
    (tr = [⟨s, .bufferHeaderRelease b, ()⟩, ⟨s₁, .portIsEnabled, false⟩] ∧ s' = s₁) ∨
    ∃ c rest, ∃ status : MmalStatus,
      let s₂ : Pool n := { s₁ with queue := rest, hands := [c] }
      s₁.queue = c :: rest ∧
      tr = [⟨s, .bufferHeaderRelease b, ()⟩, ⟨s₁, .portIsEnabled, true⟩,
        ⟨s₁, .queueGet, some c⟩, ⟨s₂, .portSendBuffer c, status⟩] ∧
      s' = if status = mmalSuccess then { s₂ with port := c :: s₂.port, hands := [] } else s₂ := by
  intro s₁
  -- `mmal_buffer_header_release(buffer)`
  obtain ⟨_, s₁', t₁, hrel, rfl, h⟩ := h
  have hs₁ : s₁' = s₁ := by
    rw [show s₁' = { s with queue := s.queue ++ [b], hands := s.hands.erase b } from hrel, hhands]
    simp only [List.erase_cons_head, s₁]
  subst hs₁
  -- `port->is_enabled`
  obtain ⟨isEnabled, s₁'', t₂, hen, rfl, h⟩ := h
  have hs₁ : s₁'' = s₁ := hen
  subst hs₁
  cases isEnabled with
  | false =>
    obtain ⟨rfl, -, rfl⟩ := h
    exact Or.inl ⟨rfl, rfl⟩
  | true =>
    refine Or.inr ?_
    obtain ⟨newBuffer, s₂, t₃, hget, rfl, h⟩ := h
    cases newBuffer with
    | none =>
      -- the queue holds at least the header just released
      have hempty : s.queue ++ [b] = [] := hget.1
      simp at hempty
    | some c =>
      -- what the send answers is printed and then forgotten
      obtain ⟨rest, hqueue, rfl⟩ := hget
      obtain ⟨status, s₃, t₄, hsend, rfl, h⟩ := h
      obtain ⟨rfl, -, rfl⟩ := h
      refine ⟨c, rest, status, hqueue, rfl, ?_⟩
      rw [show s' = _ from hsend]
      simp only [List.erase_cons_head, s₁]

/-- An invocation conserves the headers exactly when its send, if it makes one, succeeds. -/
theorem invoke_conserves_iff {s s' : Pool n} {i : Invocation n} (h : s.Conserved)
    (hhands : s.hands = []) (hinvoke : invoke s i s') : i.Conserves s' ↔ i.SendsSucceed := by
  obtain ⟨hport, hexec⟩ := hinvoke
  have h₀ := conserved_handOver h hhands hport
  have h₁ := conserved_release h₀ rfl
  unfold Invocation.Conserves Invocation.SendsSucceed
  rcases exec_videoBufferCallback rfl hexec with ⟨htr, rfl⟩ | ⟨c, rest, status, hqueue, htr, rfl⟩
  · -- the port is disabled, and the header released stays in the queue
    rw [htr, List.forall_mem_cons, List.forall_mem_singleton, List.forall_mem_cons,
      List.forall_mem_singleton]
    exact iff_of_true ⟨⟨h₀, h₁⟩, h₁, rfl⟩ ⟨trivial, trivial⟩
  · have h₂ := conserved_get h₁ hqueue
    rw [htr]
    simp only [List.forall_mem_cons]
    constructor
    · rintro ⟨-, -, hempty⟩
      -- after a failed send the header taken from the queue is still in the callback's hands
      have hok : status = mmalSuccess := by
        by_contra hfail
        rw [if_neg hfail] at hempty
        exact absurd hempty (List.cons_ne_nil _ _)
      exact ⟨trivial, trivial, trivial, hok, List.forall_mem_nil _⟩
    · rintro ⟨-, -, -, hok, -⟩
      rw [if_pos hok]
      exact ⟨⟨h₀, h₁, h₁, h₂, List.forall_mem_nil _⟩, conserved_send h₂ rfl, rfl⟩

/-! ## The initial loop -/

theorem sendBuffers_conserves {left : Nat} {s s' : Pool n} {tr : MmalTrace n} (h : s.Conserved)
    (hhands : s.hands = []) (hexec : Prog.Exec mmalEnv (sendBuffers left) s tr 0 s') :
    s'.Conserved ∧ s'.hands = [] := by
  -- on the buffers still to go: a return of 0 means that every send so far has succeeded
  induction left generalizing s tr with
  | zero =>
    obtain ⟨-, -, rfl⟩ := hexec
    exact ⟨h, hhands⟩
  | succ left ih =>
    obtain ⟨buffer, s₁, t₁, hget, rfl, hexec⟩ := hexec
    cases buffer with
    | none =>
      obtain ⟨-, hret, -⟩ := hexec
      exact absurd hret (by decide)
    | some b =>
      obtain ⟨rest, hqueue, rfl⟩ := hget
      have h₁ := conserved_get h hqueue
      obtain ⟨status, s₂, t₂, hsend, rfl, hexec⟩ := hexec
      change Prog.Exec mmalEnv (if status ≠ mmalSuccess then _ else _) s₂ t₂ 0 s' at hexec
      by_cases hok : status = mmalSuccess
      · have hs₂ : s₂ = { s with queue := rest, port := b :: s.port, hands := [] } := by
          rw [show s₂ = _ from hsend, if_pos hok]
          simp only [List.erase_cons_head, hhands]
        subst hs₂
        rw [if_neg (not_not_intro hok)] at hexec
        rw [hhands] at h₁
        exact ih (conserved_send h₁ rfl) rfl hexec
      · rw [if_pos hok] at hexec
        obtain ⟨-, hret, -⟩ := hexec
        exact absurd hret (by decide)

theorem created_conserved : (Pool.created n).Conserved := by
  intro x
  have hcount := List.count_eq_one_of_mem (List.nodup_finRange n) (List.mem_finRange x)
  unfold Pool.created
  rw [hcount, List.count_nil]

/-- The pool is conserved, and no header is held, once the loop of `initialize_cameras` succeeds. -/
theorem sendAllBuffers_conserves {s : Pool n} {tr : MmalTrace n}
    (hexec : Prog.Exec mmalEnv sendAllBuffers (Pool.created n) tr 0 s) :
    s.Conserved ∧ s.hands = [] := by
  obtain ⟨num, s₁, t₁, hlen, rfl, hexec⟩ := hexec
  obtain ⟨-, rfl⟩ := hlen
  exact sendBuffers_conserves created_conserved rfl hexec

/-! ## Runs of callbacks -/

/-- With one buffer in the pool, a send that fails loses it. -/
theorem failed_send_loses_header :
    ¬ ∀ (n : Nat) (s₀ : Pool n) (init : MmalTrace n),
      Prog.Exec mmalEnv sendAllBuffers (Pool.created n) init 0 s₀ →
      ∀ (tr : List (Step (Pool n) (Invocation n))) (s' : Pool n), Run invoke s₀ tr s' →
        ∀ x ∈ tr, x.label.Conserves x.post := by
  intro h
  let s₀ : Pool 1 := ⟨[], [0], []⟩
  let s₁ : Pool 1 := ⟨[0], [], []⟩
  let s₂ : Pool 1 := ⟨[], [], [0]⟩
  have hinit : Prog.Exec mmalEnv sendAllBuffers (Pool.created 1)
      [⟨s₁, .queueLength, (1 : Nat)⟩, ⟨s₁, .queueGet, some 0⟩,
        ⟨s₂, .portSendBuffer 0, mmalSuccess⟩] 0 s₀ :=
    ⟨1, s₁, _, ⟨rfl, rfl⟩, rfl, some 0, s₂, _, ⟨[], rfl, rfl⟩, rfl, mmalSuccess, s₀, _, rfl, rfl,
      rfl, rfl, rfl⟩
  let fail : MmalStatus := 1
  let i : Invocation 1 := ⟨0, [⟨s₂, .bufferHeaderRelease 0, ()⟩, ⟨s₁, .portIsEnabled, true⟩,
    ⟨s₁, .queueGet, some 0⟩, ⟨s₂, .portSendBuffer 0, fail⟩]⟩
  have hinvoke : invoke s₀ i s₂ :=
    ⟨List.mem_cons_self, (), s₁, _, rfl, rfl, true, s₁, _, rfl, rfl, some 0, s₂, _,
      ⟨[], rfl, rfl⟩, rfl, fail, s₂, _, rfl, rfl, rfl, rfl, rfl⟩
  have hrun : Run invoke s₀ [⟨s₀, i, s₂⟩] s₂ := ⟨rfl, hinvoke, rfl⟩
  have hconserves := h 1 s₀ _ hinit _ _ hrun _ List.mem_cons_self
  exact absurd hconserves.2.2 (List.cons_ne_nil _ _)

/-- After the loop of `initialize_cameras` has succeeded, every callback of a run conserves the
headers at all times and keeps none exactly when no send in the run fails. -/
theorem callbacks_conserve_iff (n : Nat) (s₀ : Pool n) (init : MmalTrace n)
    (hinit : Prog.Exec mmalEnv sendAllBuffers (Pool.created n) init 0 s₀)
    (tr : List (Step (Pool n) (Invocation n))) (s' : Pool n) (hrun : Run invoke s₀ tr s') :
    (∀ x ∈ tr, x.label.Conserves x.post) ↔ ∀ x ∈ tr, x.label.SendsSucceed := by
  obtain ⟨h₀, hhands₀⟩ := sendAllBuffers_conserves hinit
  clear hinit
  -- on the run: each invocation starts from a conserved pool as long as the sends before succeed
  induction tr generalizing s₀ with
  | nil =>
    exact ⟨fun _ x hx => absurd hx List.not_mem_nil, fun _ x hx => absurd hx List.not_mem_nil⟩
  | cons y tr ih =>
    obtain ⟨rfl, hinvoke, hrun⟩ := hrun
    have hy := invoke_conserves_iff h₀ hhands₀ hinvoke
    rw [List.forall_mem_cons, List.forall_mem_cons, hy]
    constructor
    · rintro ⟨hsends, hrest⟩
      obtain ⟨-, hpost, hhands⟩ := hy.mpr hsends
      exact ⟨hsends, (ih y.post hrun hpost hhands).mp hrest⟩
    · rintro ⟨hsends, hrest⟩
      obtain ⟨-, hpost, hhands⟩ := hy.mpr hsends
      exact ⟨hsends, (ih y.post hrun hpost hhands).mpr hrest⟩

/-- One callback of a one-buffer pool whose send succeeds. -/
theorem callbacks_conserve_iff_once :
    let s₀ : Pool 1 := ⟨[], [0], []⟩
    let s₁ : Pool 1 := ⟨[0], [], []⟩
    let s₂ : Pool 1 := ⟨[], [], [0]⟩
    let i : Invocation 1 := ⟨0, [⟨s₂, .bufferHeaderRelease 0, ()⟩, ⟨s₁, .portIsEnabled, true⟩,
      ⟨s₁, .queueGet, some 0⟩, ⟨s₂, .portSendBuffer 0, mmalSuccess⟩]⟩
    (∀ x ∈ [(⟨s₀, i, s₀⟩ : Step (Pool 1) (Invocation 1))], x.label.Conserves x.post) ↔
      ∀ x ∈ [(⟨s₀, i, s₀⟩ : Step (Pool 1) (Invocation 1))], x.label.SendsSucceed :=
  callbacks_conserve_iff 1 _
    [⟨⟨[0], [], []⟩, .queueLength, (1 : Nat)⟩, ⟨⟨[0], [], []⟩, .queueGet, some 0⟩,
      ⟨⟨[], [], [0]⟩, .portSendBuffer 0, mmalSuccess⟩]
    ⟨1, ⟨[0], [], []⟩, _, ⟨rfl, rfl⟩, rfl, some 0, ⟨[], [], [0]⟩, _, ⟨[], rfl, rfl⟩, rfl,
      mmalSuccess, ⟨[], [0], []⟩, _, rfl, rfl, rfl, rfl, rfl⟩
    _ ⟨[], [0], []⟩
    ⟨rfl, ⟨List.mem_cons_self, (), ⟨[0], [], []⟩, _, rfl, rfl, true, ⟨[0], [], []⟩, _, rfl, rfl,
      some 0, ⟨[], [], [0]⟩, _, ⟨[], rfl, rfl⟩, rfl, mmalSuccess, ⟨[], [0], []⟩, _, rfl, rfl, rfl,
      rfl, rfl⟩, rfl⟩

end SimuSound.Camera
