import Mathlib.Algebra.Order.BigOperators.Group.List
import Mathlib.Algebra.Order.Ring.Nat
import SimuSound.Camera.MipiPool
import SimuSound.Reasoning.Threads

/-!
# PoolThreads — callbacks while `initialize_cameras` is still sending buffers

The port and the camera are enabled before the loop sends the first buffer, so that callbacks run
on their thread while the loop is still taking headers from the same queue.
-/

namespace SimuSound.Camera

open Reasoning

variable {n : Nat}

/-- What the threads share: the pool's queue and the port. -/
structure Shared (n : Nat) where
  queue : List (Header n)
  port : List (Header n)

/-- The pool as a thread sees it, with what it holds itself. -/
def Shared.view (w : Shared n × List (Header n)) : Pool n := ⟨w.1.queue, w.1.port, w.2⟩

def threadEnv : Env (Shared n × List (Header n)) (MmalEvent n) MmalEvent.Resp :=
  fun w e r w' => mmalEnv (Shared.view w) e r (Shared.view w')

abbrev MmalThread (n : Nat) (α : Type) := Thread (List (Header n)) (MmalEvent n) MmalEvent.Resp α

abbrev Request (n : Nat) := Obs (Shared n × List (Header n)) (MmalEvent n) MmalEvent.Resp

/-- The thread of `initialize_cameras` and the callbacks, those that have returned among them. -/
structure Session (n : Nat) where
  shared : Shared n
  init : MmalThread n Int
  callbacks : List (MmalThread n Unit)

/-- The pool has been created and the loop is about to begin. -/
def Session.created (n : Nat) : Session n := ⟨⟨List.finRange n, []⟩, ⟨[], sendAllBuffers⟩, []⟩

inductive Move (n : Nat)
  | init (o : Request n)
  | callback (o : Request n)
  | deliver (buffer : Header n)

/-- A thread makes a request, or MMAL calls back with a buffer it has filled. -/
def sessionStep (w : Session n) (l : Move n) (w' : Session n) : Prop :=
  match l with
  | .init o => w.init.Advance threadEnv w.shared o w'.init w'.shared ∧ w'.callbacks = w.callbacks
  | .callback o => ∃ t t', t.Advance threadEnv w.shared o t' w'.shared ∧
      Replaced w.callbacks t t' w'.callbacks ∧ w'.init = w.init
  | .deliver b => b ∈ w.shared.port ∧ w' =
      ⟨{ w.shared with port := w.shared.port.erase b }, w.init,
        ⟨[b], videoBufferCallback b⟩ :: w.callbacks⟩

/-- A get that finds the queue empty. -/
def Unserved (o : Request n) : Prop := match o with
  | ⟨_, .queueGet, (none : Option (Header n))⟩ => True
  | _ => False

/-- The sends of a request that have failed: one or none. -/
def failures (o : Request n) : ℕ := match o with
  | ⟨_, .portSendBuffer _, (status : MmalStatus)⟩ => if status = mmalSuccess then 0 else 1
  | _ => 0

/-! ## The points of the two programs -/

/-- `video_buffer_callback` after the release. -/
def callbackReleased : Mmal n Unit := do
  if ← mmalPortIsEnabled then
    match ← mmalQueueGet with
    | none => pure ()
    | some newBuffer =>
      let _status ← mmalPortSendBuffer newBuffer
      pure ()

/-- After it has found the port enabled. -/
def callbackEnabled : Mmal n Unit := do
  match ← mmalQueueGet with
  | none => pure ()
  | some newBuffer =>
    let _status ← mmalPortSendBuffer newBuffer
    pure ()

/-- With a header to send. -/
def callbackTaken (newBuffer : Header n) : Mmal n Unit := do
  let _status ← mmalPortSendBuffer newBuffer
  pure ()

/-- Where a callback is. -/
inductive CallbackPoint (n : Nat)
  | called (buffer : Header n)
  | released
  | enabled
  | taken (buffer : Header n)
  | returned (lost : Option (Header n))

namespace CallbackPoint

def thread : CallbackPoint n → MmalThread n Unit
  | called b => ⟨[b], videoBufferCallback b⟩
  | released => ⟨[], callbackReleased⟩
  | enabled => ⟨[], callbackEnabled⟩
  | taken b => ⟨[b], callbackTaken b⟩
  | returned lost => ⟨lost.toList, .ret ()⟩

/-- A callback that has released its header has one of the queue to its credit. -/
def credit : CallbackPoint n → ℕ
  | released | enabled => 1
  | called _ | taken _ | returned _ => 0

def lost : CallbackPoint n → ℕ
  | returned lost => lost.toList.length
  | called _ | released | enabled | taken _ => 0

end CallbackPoint

/-- The loop with a header to send. -/
def loopTaken (buffer : Header n) (left : Nat) : Mmal n Int := do
  let status ← mmalPortSendBuffer buffer
  if status ≠ mmalSuccess then pure (-1) else sendBuffers left

/-- Where the loop is; `sending 0` is its end. -/
inductive InitPoint (n : Nat)
  | measuring
  | sending (left : Nat)
  | taken (buffer : Header n) (left : Nat)
  | failed (lost : Header n)

namespace InitPoint

def thread : InitPoint n → MmalThread n Int
  | measuring => ⟨[], sendAllBuffers⟩
  | sending left => ⟨[], sendBuffers left⟩
  | taken b left => ⟨[b], loopTaken b left⟩
  | failed lost => ⟨[lost], .ret (-1)⟩

/-- The headers that the loop will still take. -/
def credit : InitPoint n → ℕ
  | measuring => n
  | sending left | taken _ left => left
  | failed _ => 0

def lost : InitPoint n → ℕ
  | failed _ => 1
  | measuring | sending _ | taken _ _ => 0

end InitPoint

/-! ## One request -/

/-- What a request does: the headers are the same, the queue does not lose more than the thread's
credit, and a header is lost when a send has failed. -/
structure Accounted (w w' : Shared n × List (Header n)) (o : Request n)
    (credit credit' lost lost' : ℕ) : Prop where
  headers : (w'.1.queue ++ (w'.1.port ++ w'.2)).Perm (w.1.queue ++ (w.1.port ++ w.2))
  covered : w.1.queue.length + credit' ≤ w'.1.queue.length + credit
  served : credit ≤ w.1.queue.length → ¬ Unserved o
  failed : lost' = lost + failures o

section
variable {s s' : Shared n} {own own' : List (Header n)} {b : Header n}

theorem threadEnv_release {r : Unit} (hown : own = [b])
    (henv : threadEnv (s, own) (.bufferHeaderRelease b) r (s', own')) :
    s' = { s with queue := s.queue ++ [b] } ∧ own' = [] := by
  have heq : Pool.mk s'.queue s'.port own' = ⟨s.queue ++ [b], s.port, own.erase b⟩ := henv
  obtain ⟨hqueue, hport, hhands⟩ := Pool.mk.inj heq
  rw [hown, List.erase_cons_head] at hhands
  obtain ⟨queue, port⟩ := s'
  exact ⟨by rw [show queue = _ from hqueue, show port = _ from hport], hhands⟩

theorem threadEnv_isEnabled {r : Bool}
    (henv : threadEnv (s, own) .portIsEnabled r (s', own')) : s' = s ∧ own' = own := by
  have heq : Pool.mk s'.queue s'.port own' = ⟨s.queue, s.port, own⟩ := henv
  obtain ⟨hqueue, hport, hhands⟩ := Pool.mk.inj heq
  obtain ⟨queue, port⟩ := s'
  exact ⟨by rw [show queue = _ from hqueue, show port = _ from hport], hhands⟩

theorem threadEnv_queueLength {len : Nat}
    (henv : threadEnv (s, own) .queueLength len (s', own')) :
    len = s.queue.length ∧ s' = s ∧ own' = own := by
  have heq : Pool.mk s'.queue s'.port own' = ⟨s.queue, s.port, own⟩ := henv.2
  obtain ⟨hqueue, hport, hhands⟩ := Pool.mk.inj heq
  obtain ⟨queue, port⟩ := s'
  exact ⟨henv.1, by rw [show queue = _ from hqueue, show port = _ from hport], hhands⟩

theorem threadEnv_get {r : Option (Header n)}
    (henv : threadEnv (s, own) .queueGet r (s', own')) :
    (r = none ∧ s.queue = [] ∧ s' = s ∧ own' = own) ∨
      ∃ c rest, r = some c ∧ s.queue = c :: rest ∧ s' = { s with queue := rest } ∧
        own' = c :: own := by
  obtain ⟨queue, port⟩ := s'
  cases r with
  | none =>
    have heq : Pool.mk queue port own' = ⟨s.queue, s.port, own⟩ := henv.2
    obtain ⟨rfl, rfl, rfl⟩ := Pool.mk.inj heq
    exact Or.inl ⟨rfl, henv.1, rfl, rfl⟩
  | some c =>
    obtain ⟨rest, hqueue, heq⟩ := henv
    have heq : Pool.mk queue port own' = ⟨rest, s.port, c :: own⟩ := heq
    obtain ⟨rfl, rfl, rfl⟩ := Pool.mk.inj heq
    exact Or.inr ⟨c, queue, rfl, hqueue, rfl, rfl⟩

theorem threadEnv_send {status : MmalStatus} (hown : own = [b])
    (henv : threadEnv (s, own) (.portSendBuffer b) status (s', own')) :
    if status = mmalSuccess then s' = { s with port := b :: s.port } ∧ own' = []
    else s' = s ∧ own' = [b] := by
  obtain ⟨queue, port⟩ := s'
  have heq : Pool.mk queue port own' = if status = mmalSuccess then
    ⟨s.queue, b :: s.port, own.erase b⟩ else ⟨s.queue, s.port, own⟩ := henv
  rw [hown, List.erase_cons_head] at heq
  split
  · rw [if_pos ‹_›] at heq
    obtain ⟨rfl, rfl, rfl⟩ := Pool.mk.inj heq
    exact ⟨rfl, rfl⟩
  · rw [if_neg ‹_›] at heq
    obtain ⟨rfl, rfl, rfl⟩ := Pool.mk.inj heq
    exact ⟨rfl, rfl⟩

/-- A request that moves no header. -/
theorem accounted_idle {o : Request n} {credit credit' lost : ℕ} (hcredit : credit' ≤ credit)
    (hserved : ¬ Unserved o) (hfailures : failures o = 0) :
    Accounted (s, own) (s, own) o credit credit' lost lost :=
  ⟨.refl _, by omega, fun _ => hserved, by rw [hfailures, Nat.add_zero]⟩

/-- Taking a header of the queue. -/
theorem accounted_get {o : Request n} {c : Header n} {rest : List (Header n)} {credit lost : ℕ}
    (hqueue : s.queue = c :: rest) (hserved : ¬ Unserved o) (hfailures : failures o = 0) :
    Accounted (s, []) (⟨rest, s.port⟩, [c]) o (credit + 1) credit lost lost := by
  refine ⟨?_, ?_, fun _ => hserved, by rw [hfailures, Nat.add_zero]⟩
  · show (rest ++ (s.port ++ [c])).Perm (s.queue ++ (s.port ++ []))
    rw [hqueue, List.append_nil, ← List.append_assoc]
    exact List.perm_append_singleton c (rest ++ s.port)
  · show s.queue.length + credit ≤ rest.length + (credit + 1)
    rw [hqueue, List.length_cons]
    omega

/-- A send, whether it moves the header to the port or leaves it with the thread. -/
theorem accounted_send {status : MmalStatus} {credit lost : ℕ} {o : Request n}
    (ho : o = ⟨(s, [b]), .portSendBuffer b, status⟩) :
    if status = mmalSuccess then
      Accounted (s, [b]) (⟨s.queue, b :: s.port⟩, []) o credit credit lost lost
    else Accounted (s, [b]) (s, [b]) o credit credit lost (lost + 1) := by
  have hserved : ¬ Unserved o := by
    rw [ho]
    exact not_false
  have hfailures : failures o = if status = mmalSuccess then 0 else 1 := by
    rw [ho]
    rfl
  split
  · rw [if_pos ‹_›] at hfailures
    refine ⟨?_, Nat.le_refl _, fun _ => hserved, by rw [hfailures, Nat.add_zero]⟩
    show (s.queue ++ (b :: s.port ++ [])).Perm (s.queue ++ (s.port ++ [b]))
    rw [List.append_nil]
    exact (List.perm_append_singleton b s.port).symm.append_left s.queue
  · rw [if_neg ‹_›] at hfailures
    exact ⟨.refl _, Nat.le_refl _, fun _ => hserved, by rw [hfailures]⟩

theorem callback_advance {point : CallbackPoint n} {o : Request n} {t' : MmalThread n Unit}
    (h : point.thread.Advance threadEnv s o t' s') : ∃ point' : CallbackPoint n,
      point'.thread = t' ∧ Accounted (s, point.thread.own) (s', t'.own) o point.credit
        point'.credit point.lost point'.lost := by
  obtain ⟨own', todo'⟩ := t'
  cases point with
  | called b =>
    obtain ⟨r, rfl, henv, htodo⟩ := advance_act.mp h
    obtain ⟨rfl, hown⟩ := threadEnv_release rfl henv
    obtain rfl : own' = [] := hown
    refine ⟨.released, congrArg (Thread.mk []) htodo.symm, ?_⟩
    refine ⟨?_, ?_, fun _ => not_false, rfl⟩
    · show ((s.queue ++ [b]) ++ (s.port ++ [])).Perm (s.queue ++ (s.port ++ [b]))
      rw [List.append_nil, List.append_assoc]
      exact (List.perm_append_comm).append_left s.queue
    · show s.queue.length + 1 ≤ (s.queue ++ [b]).length + 0
      rw [List.length_append, List.length_singleton]
  | released =>
    obtain ⟨r, rfl, henv, htodo⟩ := advance_act.mp h
    obtain ⟨rfl, hown⟩ := threadEnv_isEnabled henv
    obtain rfl : own' = [] := hown
    cases r with
    | false =>
      refine ⟨.returned none, congrArg (Thread.mk []) htodo.symm, ?_⟩
      exact accounted_idle (Nat.zero_le _) not_false rfl
    | true =>
      refine ⟨.enabled, congrArg (Thread.mk []) htodo.symm, ?_⟩
      exact accounted_idle (Nat.le_refl _) not_false rfl
  | enabled =>
    obtain ⟨r, rfl, henv, htodo⟩ := advance_act.mp h
    rcases threadEnv_get henv with ⟨rfl, hqueue, rfl, hown⟩ | ⟨c, rest, rfl, hqueue, rfl, hown⟩
    · -- there is one to its credit
      obtain rfl : own' = [] := hown
      refine ⟨.returned none, congrArg (Thread.mk []) htodo.symm, .refl _, Nat.le_add_right _ 1,
        ?_, rfl⟩
      intro hcredit
      rw [hqueue] at hcredit
      exact absurd (show 1 ≤ 0 from hcredit) (by decide)
    · obtain rfl : own' = [c] := hown
      exact ⟨.taken c, congrArg (Thread.mk [c]) htodo.symm, accounted_get hqueue not_false rfl⟩
  | taken b =>
    obtain ⟨status, rfl, henv, htodo⟩ := advance_act.mp h
    have hsend := threadEnv_send rfl henv
    have haccount := @accounted_send n s b status 0 0 _ rfl
    by_cases hok : status = mmalSuccess
    · rw [if_pos hok] at hsend haccount
      obtain ⟨rfl, hown⟩ := hsend
      obtain rfl : own' = [] := hown
      exact ⟨.returned none, congrArg (Thread.mk []) htodo.symm, haccount⟩
    · rw [if_neg hok] at hsend haccount
      obtain ⟨rfl, hown⟩ := hsend
      obtain rfl : own' = [b] := hown
      exact ⟨.returned (some b), congrArg (Thread.mk [b]) htodo.symm, haccount⟩
  | returned lost => exact absurd h not_advance_ret

/-- The loop takes as many headers as it has found in the queue, and no more. -/
theorem init_advance {point : InitPoint n} {o : Request n} {t' : MmalThread n Int}
    (hsize : s.queue.length ≤ n) (hcredit : point.credit ≤ s.queue.length)
    (h : point.thread.Advance threadEnv s o t' s') :
    ∃ point' : InitPoint n, point'.thread = t' ∧ Accounted (s, point.thread.own) (s', t'.own) o
      point.credit point'.credit point.lost point'.lost := by
  obtain ⟨own', todo'⟩ := t'
  cases point with
  | measuring =>
    obtain ⟨len, rfl, henv, htodo⟩ := advance_act.mp h
    obtain ⟨hlen, rfl, hown⟩ := threadEnv_queueLength henv
    obtain rfl : own' = [] := hown
    refine ⟨.sending len, congrArg (Thread.mk []) htodo.symm, ?_⟩
    have hle : len ≤ n := le_of_eq_of_le hlen hsize
    exact @accounted_idle n s' [] ⟨(s', []), .queueLength, len⟩ n len 0 hle not_false rfl
  | sending left =>
    cases left with
    | zero => exact absurd h not_advance_ret
    | succ left =>
      obtain ⟨r, rfl, henv, htodo⟩ := advance_act.mp h
      rcases threadEnv_get henv with ⟨rfl, hqueue, rfl, hown⟩ | ⟨c, rest, rfl, hqueue, rfl, hown⟩
      · -- the queue holds what is to its credit
        rw [hqueue] at hcredit
        exact absurd (show left + 1 ≤ 0 from hcredit) (Nat.not_succ_le_zero left)
      · obtain rfl : own' = [c] := hown
        exact ⟨.taken c left, congrArg (Thread.mk [c]) htodo.symm,
          accounted_get hqueue not_false rfl⟩
  | taken b left =>
    obtain ⟨status, rfl, henv, htodo⟩ := advance_act.mp h
    have hnext : todo' = if status ≠ mmalSuccess then pure (-1) else sendBuffers left := htodo
    have hsend := threadEnv_send rfl henv
    have haccount := @accounted_send n s b status left 0 _ rfl
    by_cases hok : status = mmalSuccess
    · rw [if_pos hok] at hsend haccount
      obtain ⟨rfl, hown⟩ := hsend
      obtain rfl : own' = [] := hown
      rw [if_neg (not_not_intro hok)] at hnext
      exact ⟨.sending left, congrArg (Thread.mk []) hnext.symm, haccount⟩
    · rw [if_neg hok] at hsend haccount
      obtain ⟨rfl, hown⟩ := hsend
      obtain rfl : own' = [b] := hown
      rw [if_pos hok] at hnext
      exact ⟨.failed b, congrArg (Thread.mk [b]) hnext.symm,
        ⟨haccount.headers, Nat.le_add_right _ _, haccount.served, haccount.failed⟩⟩
  | failed lost => exact absurd h not_advance_ret

end

/-! ## All threads together -/

/-- A number of headers that does not depend on their order. -/
structure Counts (size : List (Header n) → ℕ) : Prop where
  append : ∀ xs ys, size (xs ++ ys) = size xs + size ys
  perm : ∀ {xs ys : List (Header n)}, xs.Perm ys → size xs = size ys

/-- Those of the queue, of the port and of all threads. -/
def Session.total (size : List (Header n) → ℕ) (w : Session n) : ℕ :=
  size w.shared.queue + size w.shared.port + size w.init.own +
    (w.callbacks.map fun t => size t.own).sum

/-- Every header is in exactly one place. -/
def Session.Conserved (w : Session n) : Prop := ∀ h : Header n, w.total (List.count h) = 1

theorem counts_count (h : Header n) : Counts (List.count h) :=
  ⟨fun _ _ => List.count_append, fun hperm => hperm.count_eq h⟩

theorem counts_length : Counts (List.length : List (Header n) → ℕ) :=
  ⟨fun _ _ => List.length_append, fun hperm => hperm.length_eq⟩

/-- The points of all threads, with the sends that have failed so far. -/
structure Tracked (point : InitPoint n) (points : List (CallbackPoint n)) (initFailed failed : ℕ)
    (w : Session n) : Prop where
  init : point.thread = w.init
  callbacks : points.map CallbackPoint.thread = w.callbacks
  conserved : w.Conserved
  size : w.total List.length = n
  covered : point.credit + (points.map CallbackPoint.credit).sum ≤ w.shared.queue.length
  initLost : point.lost = initFailed
  lost : (points.map CallbackPoint.lost).sum = failed

section
variable {w w' : Session n} {size : List (Header n) → ℕ} {o : Request n}

theorem Accounted.keeps {s s' : Shared n} {own own' : List (Header n)}
    {credit credit' lost lost' : ℕ}
    (h : Accounted (s, own) (s', own') o credit credit' lost lost') (hsize : Counts size) :
    size s'.queue + size s'.port + size own' = size s.queue + size s.port + size own := by
  have heq := hsize.perm h.headers
  rw [hsize.append, hsize.append, hsize.append, hsize.append] at heq
  show size s'.queue + size s'.port + size own' = _
  simp only at heq
  omega

theorem Accounted.covers {s s' : Shared n} {own own' : List (Header n)}
    {credit credit' lost lost' : ℕ}
    (h : Accounted (s, own) (s', own') o credit credit' lost lost') :
    s.queue.length + credit' ≤ s'.queue.length + credit := h.covered

theorem tracked_created : Tracked .measuring [] 0 0 (Session.created n) := by
  refine ⟨rfl, rfl, fun h => ?_, ?_, ?_, rfl, rfl⟩
  · show (List.finRange n).count h + 0 + 0 + 0 = 1
    exact List.count_eq_one_of_mem (List.nodup_finRange n) (List.mem_finRange h)
  · exact List.length_finRange
  · exact Nat.le_of_eq List.length_finRange.symm

variable {point : InitPoint n} {points : List (CallbackPoint n)} {initFailed failed : ℕ}

theorem Tracked.credit_le (h : Tracked point points initFailed failed w) :
    point.credit ≤ w.shared.queue.length := Nat.le_trans (Nat.le_add_right _ _) h.covered

theorem Tracked.queue_le (h : Tracked point points initFailed failed w) :
    w.shared.queue.length ≤ n := by
  have hsize := h.size
  unfold Session.total at hsize
  omega

theorem tracked_init (h : Tracked point points initFailed failed w)
    (hstep : sessionStep w (.init o) w') : ¬ Unserved o ∧
      ∃ point', Tracked point' points (initFailed + failures o) failed w' := by
  obtain ⟨hadvance, hcallbacks⟩ := hstep
  rw [← h.init] at hadvance
  obtain ⟨point', hpoint, haccount⟩ := init_advance h.queue_le h.credit_le hadvance
  have htotal {size : List (Header n) → ℕ} (hsize : Counts size) :
      w'.total size = w.total size := by
    have heq := haccount.keeps hsize
    rw [h.init] at heq
    unfold Session.total
    rw [hcallbacks]
    omega
  refine ⟨haccount.served h.credit_le, point', hpoint, ?_, fun header => ?_, ?_, ?_, ?_, h.lost⟩
  · rw [hcallbacks, h.callbacks]
  · rw [htotal (counts_count header)]
    exact h.conserved header
  · rw [htotal counts_length]
    exact h.size
  · have hcovered := haccount.covers
    have hbefore := h.covered
    omega
  · rw [haccount.failed, h.initLost]

theorem tracked_callback (h : Tracked point points initFailed failed w)
    (hstep : sessionStep w (.callback o) w') : ¬ Unserved o ∧
      ∃ points', Tracked point points' initFailed (failed + failures o) w' := by
  obtain ⟨t, t', hadvance, hreplaced, hinit⟩ := hstep
  have htotalOwn (size : List (Header n) → ℕ) := hreplaced.sum fun t => size t.own
  rw [← h.callbacks] at hreplaced
  obtain ⟨p, hmem, rfl, hreplace⟩ := hreplaced.of_map
  obtain ⟨p', rfl, haccount⟩ := callback_advance hadvance
  obtain ⟨points', hpoints, hcallbacks⟩ := hreplace p' rfl
  have hcredits := hpoints.sum CallbackPoint.credit
  have hlosses := hpoints.sum CallbackPoint.lost
  have hmine : p.credit ≤ (points.map CallbackPoint.credit).sum :=
    List.single_le_sum (fun _ _ => Nat.zero_le _) _ (List.mem_map.mpr ⟨p, hmem, rfl⟩)
  have hbefore := h.covered
  have htotal {size : List (Header n) → ℕ} (hsize : Counts size) :
      w'.total size = w.total size := by
    have heq := haccount.keeps hsize
    have hown := htotalOwn size
    unfold Session.total
    rw [hinit]
    omega
  have hserved : p.credit ≤ w.shared.queue.length := by omega
  refine ⟨haccount.served hserved, points', ?_, hcallbacks.symm, fun header => ?_, ?_, ?_,
    h.initLost, ?_⟩
  · rw [hinit, h.init]
  · rw [htotal (counts_count header)]
    exact h.conserved header
  · rw [htotal counts_length]
    exact h.size
  · have hcovered := haccount.covers
    omega
  · have hfailed := haccount.failed
    have hlost := h.lost
    omega

theorem tracked_deliver {b : Header n} (h : Tracked point points initFailed failed w)
    (hstep : sessionStep w (.deliver b) w') :
    Tracked point (.called b :: points) initFailed failed w' := by
  obtain ⟨hport, rfl⟩ := hstep
  have htotal {size : List (Header n) → ℕ} (hsize : Counts size) : Session.total size
      ⟨{ w.shared with port := w.shared.port.erase b }, w.init,
        ⟨[b], videoBufferCallback b⟩ :: w.callbacks⟩ = w.total size := by
    have heq := hsize.perm (List.perm_cons_erase hport)
    rw [show b :: w.shared.port.erase b = [b] ++ w.shared.port.erase b from rfl, hsize.append] at heq
    unfold Session.total
    rw [List.map_cons, List.sum_cons]
    show size w.shared.queue + size (w.shared.port.erase b) + size w.init.own + (size [b] + _) = _
    omega
  refine ⟨h.init, ?_, fun header => ?_, ?_, ?_, h.initLost, ?_⟩
  · rw [List.map_cons, h.callbacks]
    rfl
  · rw [htotal (counts_count header)]
    exact h.conserved header
  · rw [htotal counts_length]
    exact h.size
  · rw [List.map_cons, List.sum_cons]
    show point.credit + (0 + _) ≤ w.shared.queue.length
    have hbefore := h.covered
    omega
  · rw [List.map_cons, List.sum_cons]
    show 0 + _ = failed
    have hlost := h.lost
    omega

end

/-! ## Runs -/

abbrev SessionRun (n : Nat) := List (Step (Session n) (Move n))

/-- The sends of the loop that have failed. -/
def initFailures (tr : SessionRun n) : ℕ :=
  (tr.map fun x => match x.label with
    | .init o => failures o
    | _ => 0).sum

/-- The sends of callbacks that have failed. -/
def callbackFailures (tr : SessionRun n) : ℕ :=
  (tr.map fun x => match x.label with
    | .callback o => failures o
    | _ => 0).sum

/-- The request of a step is served. -/
def Move.Served : Move n → Prop
  | .init o | .callback o => ¬ Unserved o
  | .deliver _ => True

/-- No thread has anything left to do. -/
def Session.Quiescent (w : Session n) : Prop :=
  (∃ ret, w.init.todo = .ret ret) ∧ ∀ t ∈ w.callbacks, t.todo = .ret ()

/-- A run keeps the points of the threads. -/
def RunTracked (tr : SessionRun n) (w : Session n) : Prop :=
  (∃ point points, Tracked point points (initFailures tr) (callbackFailures tr) w) ∧
    ∀ x ∈ tr, x.label.Served ∧ x.post.Conserved

theorem runTracked_step {past : SessionRun n} {x : Step (Session n) (Move n)}
    (h : RunTracked past x.pre) (hstep : sessionStep x.pre x.label x.post) :
    RunTracked (past ++ [x]) x.post := by
  obtain ⟨⟨point, points, htracked⟩, hpast⟩ := h
  obtain ⟨pre, label, post⟩ := x
  have hinit : initFailures (past ++ [⟨pre, label, post⟩]) = initFailures past +
      initFailures [⟨pre, label, post⟩] := by
    unfold initFailures
    rw [List.map_append, List.sum_append]
  have hcallback : callbackFailures (past ++ [⟨pre, label, post⟩]) = callbackFailures past +
      callbackFailures [⟨pre, label, post⟩] := by
    unfold callbackFailures
    rw [List.map_append, List.sum_append]
  have hall (hserved : label.Served) (hconserved : post.Conserved) :
      ∀ y ∈ past ++ [⟨pre, label, post⟩], y.label.Served ∧ y.post.Conserved := by
    rw [List.forall_mem_append, List.forall_mem_singleton]
    exact ⟨hpast, hserved, hconserved⟩
  unfold RunTracked
  rw [hinit, hcallback]
  cases label with
  | init o =>
    obtain ⟨hserved, point', hpoint⟩ := tracked_init htracked hstep
    exact ⟨⟨point', points, hpoint⟩, hall hserved hpoint.conserved⟩
  | callback o =>
    obtain ⟨hserved, points', hpoints⟩ := tracked_callback htracked hstep
    exact ⟨⟨point, points', hpoints⟩, hall hserved hpoints.conserved⟩
  | deliver b =>
    have hdeliver := tracked_deliver htracked hstep
    exact ⟨⟨point, _, hdeliver⟩, hall trivial hdeliver.conserved⟩

theorem runTracked {w : Session n} {tr : SessionRun n}
    (hrun : Run sessionStep (Session.created n) tr w) : RunTracked tr w := by
  refine hrun.history ⟨⟨_, _, tracked_created⟩, fun x hx => absurd hx List.not_mem_nil⟩ ?_
  exact fun past x h hstep => runTracked_step h hstep

/-- A callback that has returned holds what it has lost. -/
theorem CallbackPoint.own_length {point : CallbackPoint n} (h : point.thread.todo = .ret ()) :
    point.thread.own.length = point.lost := by
  cases point with
  | called b => exact absurd h (by nofun)
  | released => exact absurd h (by nofun)
  | enabled => exact absurd h (by nofun)
  | taken b => exact absurd h (by nofun)
  | returned lost => rfl

/-- The loop returns 0 when none of its sends has failed. -/
theorem InitPoint.ret_eq {point : InitPoint n} {ret : Int} (h : point.thread.todo = .ret ret) :
    point.thread.own.length = point.lost ∧ (ret = 0 ↔ point.lost = 0) ∧ (ret = 0 ∨ ret = -1) := by
  cases point with
  | measuring => exact absurd h (by nofun)
  | sending left =>
    cases left with
    | zero =>
      obtain rfl : 0 = ret := Prog.ret.inj h
      exact ⟨rfl, iff_of_true rfl rfl, Or.inl rfl⟩
    | succ left => exact absurd h (by nofun)
  | taken b left => exact absurd h (by nofun)
  | failed lost =>
    obtain rfl : -1 = ret := Prog.ret.inj h
    exact ⟨rfl, iff_of_false (by decide) (Nat.succ_ne_zero 0), Or.inr rfl⟩

theorem Tracked.accounted {w : Session n} {point : InitPoint n} {points : List (CallbackPoint n)}
    {initFailed failed : ℕ} (h : Tracked point points initFailed failed w)
    (hquiescent : w.Quiescent) :
    w.shared.queue.length + w.shared.port.length + initFailed + failed = n := by
  obtain ⟨⟨ret, hret⟩, hreturned⟩ := hquiescent
  rw [← h.init] at hret
  have hinit := (InitPoint.ret_eq hret).1
  rw [h.init, h.initLost] at hinit
  have hcallbacks : (w.callbacks.map fun t => t.own.length).sum = failed := by
    rw [← h.lost, ← h.callbacks, List.map_map]
    apply congrArg List.sum
    apply List.map_congr_left
    intro p hp
    apply CallbackPoint.own_length
    apply hreturned
    rw [← h.callbacks]
    exact List.mem_map.mpr ⟨p, hp, rfl⟩
  have hsize := h.size
  unfold Session.total at hsize
  omega

/-- Callbacks while the loop of `initialize_cameras` is running, in any interleaving: every header
is in exactly one place at all times, neither the loop nor a callback ever finds the queue empty,
the loop fails when one of its own sends has failed and only then, and when all have come to
their end the headers that are missing are as many as the sends that have failed. -/
theorem callbacks_during_init (n : Nat) (w : Session n) (tr : SessionRun n)
    (hrun : Run sessionStep (Session.created n) tr w) :
    (∀ x ∈ tr, x.post.Conserved) ∧ (∀ x ∈ tr, x.label.Served) ∧
    (∀ ret, w.init.todo = .ret ret →
      (ret = 0 ∨ ret = -1) ∧ (ret = 0 ↔ initFailures tr = 0)) ∧
    (w.Quiescent → w.shared.queue.length + w.shared.port.length + initFailures tr +
      callbackFailures tr = n) := by
  obtain ⟨⟨point, points, htracked⟩, hall⟩ := runTracked hrun
  refine ⟨fun x hx => (hall x hx).2, fun x hx => (hall x hx).1, fun ret hret => ?_,
    htracked.accounted⟩
  rw [← htracked.init] at hret
  obtain ⟨-, hiff, hcases⟩ := InitPoint.ret_eq hret
  rw [htracked.initLost] at hiff
  exact ⟨hcases, hiff⟩

/-- Two buffers: a callback begins and takes a header while the loop still has one to send, and its
send fails. -/
theorem callbacks_during_init_two :
    ∃ w : Session 2, ∃ tr : SessionRun 2, tr.length = 10 ∧ callbackFailures tr = 1 ∧
      Run sessionStep (Session.created 2) tr w ∧ (∀ x ∈ tr, x.post.Conserved) ∧
      w.shared.queue.length + w.shared.port.length = 1 := by
  let session (queue port : List (Header 2)) (init : InitPoint 2)
      (callbacks : List (CallbackPoint 2)) : Session 2 :=
    ⟨⟨queue, port⟩, init.thread, callbacks.map CallbackPoint.thread⟩
  let w₁ := session [0, 1] [] (.sending 2) []
  let w₂ := session [1] [] (.taken 0 1) []
  let w₃ := session [1] [0] (.sending 1) []
  let w₄ := session [1] [] (.sending 1) [.called 0]
  let w₅ := session [] [] (.taken 1 0) [.called 0]
  let w₆ := session [0] [] (.taken 1 0) [.released]
  let w₇ := session [0] [] (.taken 1 0) [.enabled]
  let w₈ := session [] [] (.taken 1 0) [.taken 0]
  let w₉ := session [] [] (.taken 1 0) [.returned (some 0)]
  let w := session [] [1] (.sending 0) [.returned (some 0)]
  let fail : MmalStatus := 1
  let tr : SessionRun 2 := [
    ⟨Session.created 2, .init ⟨(⟨[0, 1], []⟩, []), .queueLength, (2 : Nat)⟩, w₁⟩,
    ⟨w₁, .init ⟨(⟨[0, 1], []⟩, []), .queueGet, some 0⟩, w₂⟩,
    ⟨w₂, .init ⟨(⟨[1], []⟩, [0]), .portSendBuffer 0, mmalSuccess⟩, w₃⟩,
    ⟨w₃, .deliver 0, w₄⟩,
    ⟨w₄, .init ⟨(⟨[1], []⟩, []), .queueGet, some 1⟩, w₅⟩,
    ⟨w₅, .callback ⟨(⟨[], []⟩, [0]), .bufferHeaderRelease 0, ()⟩, w₆⟩,
    ⟨w₆, .callback ⟨(⟨[0], []⟩, []), .portIsEnabled, true⟩, w₇⟩,
    ⟨w₇, .callback ⟨(⟨[0], []⟩, []), .queueGet, some 0⟩, w₈⟩,
    ⟨w₈, .callback ⟨(⟨[], []⟩, [0]), .portSendBuffer 0, fail⟩, w₉⟩,
    ⟨w₉, .init ⟨(⟨[], []⟩, [1]), .portSendBuffer 1, mmalSuccess⟩, w⟩]
  have hrun : Run sessionStep (Session.created 2) tr w := by
    refine ⟨rfl, ⟨⟨(2 : Nat), rfl, ⟨rfl, rfl⟩, rfl⟩, rfl⟩, ?_⟩
    refine ⟨rfl, ⟨⟨some 0, rfl, ⟨[1], rfl, rfl⟩, rfl⟩, rfl⟩, ?_⟩
    refine ⟨rfl, ⟨⟨mmalSuccess, rfl, rfl, rfl⟩, rfl⟩, ?_⟩
    refine ⟨rfl, ⟨List.mem_cons_self, rfl⟩, ?_⟩
    refine ⟨rfl, ⟨⟨some 1, rfl, ⟨[], rfl, rfl⟩, rfl⟩, rfl⟩, ?_⟩
    let at' (point : CallbackPoint 2) := point.thread
    refine ⟨rfl, ⟨at' (.called 0), at' .released, ⟨(), rfl, rfl, rfl⟩, ⟨[], [], rfl, rfl⟩, rfl⟩, ?_⟩
    refine ⟨rfl, ⟨at' .released, at' .enabled, ⟨true, rfl, rfl, rfl⟩, ⟨[], [], rfl, rfl⟩, rfl⟩, ?_⟩
    refine ⟨rfl, ⟨at' .enabled, at' (.taken 0), ⟨some 0, rfl, ⟨[], rfl, rfl⟩, rfl⟩,
      ⟨[], [], rfl, rfl⟩, rfl⟩, ?_⟩
    refine ⟨rfl, ⟨at' (.taken 0), at' (.returned (some 0)), ⟨fail, rfl, rfl, rfl⟩,
      ⟨[], [], rfl, rfl⟩, rfl⟩, ?_⟩
    exact ⟨rfl, ⟨⟨mmalSuccess, rfl, rfl, rfl⟩, rfl⟩, rfl⟩
  obtain ⟨hconserved, -, -, hmissing⟩ := callbacks_during_init 2 w tr hrun
  have hquiescent : w.Quiescent := by
    refine ⟨⟨0, rfl⟩, ?_⟩
    exact List.forall_mem_singleton.mpr rfl
  exact ⟨w, tr, rfl, rfl, hrun, hconserved, Nat.add_right_cancel (hmissing hquiescent)⟩

end SimuSound.Camera
