import Mathlib.Data.List.Basic
import Mathlib.Tactic.Common

/-!
# Framing — delimited frames in a stream

A receiver collects the symbols of the frame it is in and emits the frame at each delimiter.  The
state it is left in renders back to the stream it was fed, so the stream and the state determine
each other, and how the stream is cut into chunks does not matter.
-/

namespace Reasoning

/-- A receiver of frames: the unfinished frame and the frames emitted so far. -/
structure Framer (α : Type) where
  part : List α
  frames : List (List α)
  deriving DecidableEq

namespace Framer

variable {α : Type} [DecidableEq α] (d : α)

def push (s : Framer α) (c : α) : Framer α :=
  if c = d then ⟨[], s.frames ++ [s.part]⟩ else ⟨s.part ++ [c], s.frames⟩

def feed (s : Framer α) (cs : List α) : Framer α := cs.foldl (push d) s

/-- Frames as a sender writes them, each followed by the delimiter. -/
def encode (frames : List (List α)) : List α := frames.flatMap (· ++ [d])

/-- The stream that leads to a state. -/
def render (s : Framer α) : List α := encode d s.frames ++ s.part

theorem feed_append (s : Framer α) (xs ys : List α) :
    s.feed d (xs ++ ys) = (s.feed d xs).feed d ys := List.foldl_append

omit [DecidableEq α] in
theorem encode_append (xs ys : List (List α)) : encode d (xs ++ ys) = encode d xs ++ encode d ys :=
  List.flatMap_append

theorem render_push (s : Framer α) (c : α) : (s.push d c).render d = s.render d ++ [c] := by
  unfold push render
  by_cases hc : c = d
  · rw [if_pos hc, encode_append, hc]
    simp only [encode, List.flatMap_cons, List.flatMap_nil, List.append_nil, List.append_assoc]
  · rw [if_neg hc, List.append_assoc]

theorem render_feed (s : Framer α) (cs : List α) : (s.feed d cs).render d = s.render d ++ cs := by
  induction cs generalizing s with
  | nil => exact (List.append_nil _).symm
  | cons c cs ih =>
    change ((s.push d c).feed d cs).render d = _
    rw [ih, render_push, List.append_assoc]
    rfl

/-- Two streams lead to the same state only if they are the same stream. -/
theorem feed_inj (s : Framer α) (xs ys : List α) : s.feed d xs = s.feed d ys ↔ xs = ys := by
  constructor
  · intro h
    have hr : s.render d ++ xs = s.render d ++ ys := by
      rw [← render_feed, ← render_feed, h]
    exact List.append_cancel_left hr
  · exact congrArg _

/-- Symbols other than the delimiter only extend the unfinished frame. -/
theorem feed_of_notMem (s : Framer α) (cs : List α) (h : d ∉ cs) :
    s.feed d cs = ⟨s.part ++ cs, s.frames⟩ := by
  induction cs generalizing s with
  | nil => rw [List.append_nil]; rfl
  | cons c cs ih =>
    have hc : c ≠ d := fun he => h (he ▸ List.mem_cons_self)
    have hcs : d ∉ cs := fun he => h (List.mem_cons_of_mem c he)
    change (s.push d c).feed d cs = _
    rw [push, if_neg hc, ih _ hcs, List.append_assoc]
    rfl

theorem feed_frame (s : Framer α) (frame : List α) (h : d ∉ frame) :
    s.feed d (frame ++ [d]) = ⟨[], s.frames ++ [s.part ++ frame]⟩ := by
  rw [feed_append, feed_of_notMem d s frame h]
  change push d _ d = _
  rw [push, if_pos rfl]

/-- The receiver recovers exactly the frames that were sent. -/
theorem feed_encode (frames : List (List α)) (h : ∀ f ∈ frames, d ∉ f) (out : List (List α)) :
    Framer.feed d ⟨[], out⟩ (encode d frames) = ⟨[], out ++ frames⟩ := by
  induction frames generalizing out with
  | nil => rw [List.append_nil]; rfl
  | cons f frames ih =>
    have hf : d ∉ f := h f List.mem_cons_self
    have hfs : ∀ g ∈ frames, d ∉ g := fun g hg => h g (List.mem_cons_of_mem f hg)
    change Framer.feed d ⟨[], out⟩ ((f ++ [d]) ++ encode d frames) = _
    rw [feed_append, feed_frame d _ f hf, ih hfs, List.nil_append, List.append_assoc,
      List.singleton_append]

/-! ## What the frames are made of -/

/-- Every frame, finished or not, holds only symbols other than the delimiter that satisfy `P`. -/
def Clean (P : α → Prop) (s : Framer α) : Prop :=
  (∀ c ∈ s.part, c ≠ d ∧ P c) ∧ ∀ f ∈ s.frames, ∀ c ∈ f, c ≠ d ∧ P c

theorem clean_push {P : α → Prop} {s : Framer α} {c : α} (h : s.Clean d P) (hc : c ≠ d → P c) :
    (s.push d c).Clean d P := by
  unfold push
  by_cases hd : c = d
  · rw [if_pos hd]
    refine ⟨fun x hx => absurd hx List.not_mem_nil, fun f hf => ?_⟩
    rcases List.mem_append.mp hf with hf | hf
    · exact h.2 f hf
    · rw [List.mem_singleton.mp hf]
      exact h.1
  · rw [if_neg hd]
    refine ⟨fun x hx => ?_, h.2⟩
    rcases List.mem_append.mp hx with hx | hx
    · exact h.1 x hx
    · rw [List.mem_singleton.mp hx]
      exact ⟨hd, hc hd⟩

theorem clean_feed {P : α → Prop} {s : Framer α} {cs : List α} (h : s.Clean d P)
    (hcs : ∀ c ∈ cs, c ≠ d → P c) : (s.feed d cs).Clean d P := by
  induction cs generalizing s with
  | nil => exact h
  | cons c cs ih =>
    have hpush : (s.push d c).Clean d P := clean_push d h (hcs c List.mem_cons_self)
    exact ih hpush fun x hx => hcs x (List.mem_cons_of_mem c hx)

omit [DecidableEq α] in
theorem mem_encode {frames : List (List α)} {c : α} (h : c ∈ encode d frames) :
    c = d ∨ ∃ f ∈ frames, c ∈ f := by
  obtain ⟨f, hf, hc⟩ := List.mem_flatMap.mp h
  rcases List.mem_append.mp hc with hc | hc
  · exact Or.inr ⟨f, hf, hc⟩
  · exact Or.inl (List.mem_singleton.mp hc)

/-! ## A stream and its beginnings -/

theorem frames_push (s : Framer α) (c : α) : s.frames <+: (s.push d c).frames := by
  unfold push
  split
  · exact List.prefix_append _ _
  · exact List.prefix_rfl

theorem frames_feed (s : Framer α) (cs : List α) : s.frames <+: (s.feed d cs).frames := by
  induction cs generalizing s with
  | nil => exact List.prefix_rfl
  | cons c cs ih => exact (frames_push d s c).trans (ih (s.push d c))

/-- A longer part of the stream has led to the same frames and perhaps to more. -/
theorem frames_feed_prefix (s : Framer α) {xs ys : List α} (h : xs <+: ys) :
    (s.feed d xs).frames <+: (s.feed d ys).frames := by
  obtain ⟨zs, rfl⟩ := h
  rw [feed_append]
  exact frames_feed d _ zs

end Framer

end Reasoning
