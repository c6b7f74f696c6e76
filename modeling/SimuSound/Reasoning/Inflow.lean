import Mathlib.Algebra.GroupWithZero.Nat
import Mathlib.Data.List.Basic
import Mathlib.Tactic.Common

/-!
# Inflow — a queue that fills while it is read

A producer appends at one end while a reader takes from the other.  The reader cannot see the queue:
it asks how much the queue holds, in two digits with an arrival possible between them, and takes
batches that the count covers.
-/

namespace Reasoning

/-- The items in the queue, those still to come, and how many of them arrive before each of the next
accesses (none before later ones). -/
structure Inflow (α : Type) where
  held : List α
  coming : List α
  schedule : List Nat

namespace Inflow

variable {α : Type} (q : Inflow α)

/-- Everything the reader will see, in order. -/
def stream : List α := q.held ++ q.coming

/-- The queue at the next access. -/
def arrive : Inflow α :=
  ⟨q.held ++ q.coming.take (q.schedule.headD 0), q.coming.drop (q.schedule.headD 0),
    q.schedule.tail⟩

def pop (n : Nat) : Inflow α := { q with held := q.held.drop n }

@[simp] theorem stream_arrive : q.arrive.stream = q.stream := by
  unfold arrive stream
  rw [List.append_assoc, List.take_append_drop]

theorem held_prefix_arrive : q.held <+: q.arrive.held := List.prefix_append _ _

theorem length_le_arrive : q.held.length ≤ q.arrive.held.length := q.held_prefix_arrive.length_le

variable {q}

theorem stream_pop {n : Nat} (h : n ≤ q.held.length) : (q.pop n).stream = q.stream.drop n :=
  (List.drop_append_of_le_length h).symm

theorem take_held {n : Nat} (h : n ≤ q.held.length) : q.held.take n = q.stream.take n :=
  (List.take_append_of_le_length h).symm

theorem length_pop (n : Nat) : (q.pop n).held.length = q.held.length - n := List.length_drop

/-! ## Counting -/

/-- The high digit is read at one access and the low digit at the next. -/
def count (base : Nat) (q : Inflow α) : Nat :=
  q.arrive.held.length / base * base + q.arrive.arrive.held.length % base

/-- A count torn by an arrival is too small, never too large. -/
theorem count_le (base : Nat) : q.count base ≤ q.arrive.arrive.held.length := by
  have hgrow : q.arrive.held.length / base ≤ q.arrive.arrive.held.length / base :=
    Nat.div_le_div_right q.arrive.length_le_arrive
  calc q.count base
      ≤ q.arrive.arrive.held.length / base * base + q.arrive.arrive.held.length % base :=
        Nat.add_le_add_right (Nat.mul_le_mul_right base hgrow) _
    _ = q.arrive.arrive.held.length := Nat.div_add_mod' _ base

/-- The count to go by and the queue, once a remembered count is renewed if it does not cover
`len`. -/
def ready (base remembered len : Nat) (q : Inflow α) : Nat × Inflow α :=
  if remembered < len then (q.count base, q.arrive.arrive) else (remembered, q)

theorem ready_le (base : Nat) {remembered : Nat} (len : Nat) (h : remembered ≤ q.held.length) :
    (q.ready base remembered len).1 ≤ (q.ready base remembered len).2.held.length := by
  unfold ready
  split
  · exact count_le base
  · exact h

@[simp] theorem stream_ready (base remembered len : Nat) :
    (q.ready base remembered len).2.stream = q.stream := by
  unfold ready
  split
  · rw [stream_arrive, stream_arrive]
  · rfl

/-! ## Taking batches -/

/-- Take batches of the given sizes, but stop at the first that the count does not cover.  The
result is what is left of the count, if all were taken, and the queue at the end. -/
def drain (base : Nat) : Nat → List Nat → Inflow α → Option Nat × Inflow α
  | remembered, [], q => (some remembered, q)
  | remembered, len :: lens, q =>
    if (q.ready base remembered len).1 < len then (none, (q.ready base remembered len).2)
    else drain base ((q.ready base remembered len).1 - len) lens
      ((q.ready base remembered len).2.arrive.pop len)

theorem drain_append (base remembered : Nat) (lens lens' : List Nat) (q : Inflow α) :
    q.drain base remembered (lens ++ lens') =
      match q.drain base remembered lens with
      | (none, q₁) => (none, q₁)
      | (some left, q₁) => q₁.drain base left lens' := by
  induction lens generalizing remembered q with
  | nil => rfl
  | cons len lens ih =>
    rw [List.cons_append, drain, drain]
    split
    · rfl
    · exact ih _ _

/-- One batch: the count covers it, so the queue holds it when it is taken. -/
theorem le_arrive_of_ready {base remembered len : Nat} (h : remembered ≤ q.held.length)
    (hlen : ¬ (q.ready base remembered len).1 < len) :
    len ≤ (q.ready base remembered len).2.arrive.held.length :=
  calc len ≤ (q.ready base remembered len).1 := Nat.le_of_not_lt hlen
    _ ≤ (q.ready base remembered len).2.held.length := ready_le base len h
    _ ≤ (q.ready base remembered len).2.arrive.held.length := length_le_arrive _

/-- A count that the queue covers still does after a batch. -/
theorem covered_after {base remembered len : Nat} (h : remembered ≤ q.held.length) :
    (q.ready base remembered len).1 - len ≤
      ((q.ready base remembered len).2.arrive.pop len).held.length := by
  rw [length_pop]
  exact Nat.sub_le_sub_right (Nat.le_trans (ready_le base len h) (length_le_arrive _)) len

theorem stream_after {base remembered len : Nat} (h : remembered ≤ q.held.length)
    (hlen : ¬ (q.ready base remembered len).1 < len) :
    ((q.ready base remembered len).2.arrive.pop len).stream = q.stream.drop len := by
  rw [stream_pop (le_arrive_of_ready h hlen), stream_arrive, stream_ready]

/-- The batches are what the stream begins with. -/
theorem drain_taken {base remembered left : Nat} {lens : List Nat} {q' : Inflow α}
    (h : remembered ≤ q.held.length)
    (hdrain : q.drain base remembered lens = (some left, q')) :
    q'.stream = q.stream.drop lens.sum ∧ lens.sum ≤ q.stream.length ∧ left ≤ q'.held.length := by
  induction lens generalizing remembered q with
  | nil =>
    obtain ⟨hleft, rfl⟩ := Prod.mk.inj hdrain
    rw [← Option.some.inj hleft]
    exact ⟨List.drop_zero.symm, Nat.zero_le _, h⟩
  | cons len lens ih =>
    rw [drain] at hdrain
    split at hdrain
    · exact absurd (Prod.mk.inj hdrain).1.symm (Option.some_ne_none left)
    · next hlen =>
      have hfits : len ≤ q.stream.length := by
        rw [← stream_ready base remembered len, ← stream_arrive, stream, List.length_append]
        exact Nat.le_add_right_of_le (le_arrive_of_ready h hlen)
      obtain ⟨hstream, hsum, hleft⟩ := ih (covered_after h) hdrain
      rw [stream_after h hlen] at hstream hsum
      rw [List.length_drop] at hsum
      refine ⟨?_, ?_, hleft⟩
      · rw [hstream, List.drop_drop, List.sum_cons]
      · rw [List.sum_cons]
        omega

theorem drain_suffix (base : Nat) {remembered : Nat} (lens : List Nat)
    (h : remembered ≤ q.held.length) : (q.drain base remembered lens).2.stream <:+ q.stream := by
  induction lens generalizing remembered q with
  | nil => exact List.suffix_refl _
  | cons len lens ih =>
    rw [drain]
    split
    · exact ⟨[], stream_ready base remembered len⟩
    · next hlen =>
      have hrest := ih (covered_after h) (q := (q.ready base remembered len).2.arrive.pop len)
      rw [stream_after h hlen] at hrest
      exact hrest.trans (List.drop_suffix len _)

/-- What the count covers at the start is taken whatever becomes of the rest. -/
theorem drain_cons_suffix (base : Nat) {remembered len : Nat} (lens : List Nat)
    (h : remembered ≤ q.held.length) (hlen : len ≤ remembered) :
    (q.drain base remembered (len :: lens)).2.stream <:+ q.stream.drop len := by
  have hready : q.ready base remembered len = (remembered, q) := if_neg (Nat.not_lt.mpr hlen)
  have hnot : ¬ (q.ready base remembered len).1 < len := by
    rw [hready]
    exact Nat.not_lt.mpr hlen
  rw [drain, if_neg hnot, ← stream_after h hnot]
  exact drain_suffix base lens (covered_after h)

/-! ## When nothing arrives any more -/

theorem arrive_held_of_quiet (h : q.coming = []) : q.arrive.held = q.held := by
  simp [arrive, h]

theorem arrive_coming_of_quiet (h : q.coming = []) : q.arrive.coming = [] := by
  simp [arrive, h]

theorem count_of_quiet {base : Nat} (h : q.coming = []) : q.count base = q.held.length := by
  rw [count, arrive_held_of_quiet (arrive_coming_of_quiet h), arrive_held_of_quiet h]
  exact Nat.div_add_mod' _ base

/-- An exact count of a queue that is long enough covers every batch. -/
theorem drain_of_quiet (base : Nat) {lens : List Nat} (h : q.coming = [])
    (hlens : lens.sum ≤ q.held.length) :
    ∃ q', q.drain base q.held.length lens = (some (q.held.length - lens.sum), q') ∧
      q'.held = q.held.drop lens.sum ∧ q'.coming = [] := by
  induction lens generalizing q with
  | nil => exact ⟨q, rfl, List.drop_zero.symm, h⟩
  | cons len lens ih =>
    rw [List.sum_cons] at hlens
    have hlen : ¬ q.held.length < len := by omega
    have hpop : (q.arrive.pop len).held = q.held.drop len := by
      rw [pop, arrive_held_of_quiet h]
    have hrest : lens.sum ≤ (q.arrive.pop len).held.length := by
      rw [hpop, List.length_drop]
      omega
    obtain ⟨q', hdrain, hheld, hcoming⟩ :=
      ih (q := q.arrive.pop len) (arrive_coming_of_quiet h) hrest
    have hready : q.ready base q.held.length len = (q.held.length, q) := if_neg hlen
    refine ⟨q', ?_, ?_, hcoming⟩
    · rw [drain, hready, if_neg hlen, List.sum_cons, ← Nat.sub_sub]
      rwa [hpop, List.length_drop] at hdrain
    · rw [hheld, hpop, List.drop_drop, List.sum_cons]

/-- The same of a queue that is counted first. -/
theorem drain_count_of_quiet (base : Nat) {lens : List Nat} (h : q.coming = [])
    (hlens : lens.sum ≤ q.held.length) :
    ∃ q', q.arrive.arrive.drain base (q.count base) lens =
        (some (q.held.length - lens.sum), q') ∧
      q'.held = q.held.drop lens.sum ∧ q'.coming = [] := by
  have hcoming : q.arrive.arrive.coming = [] := arrive_coming_of_quiet (arrive_coming_of_quiet h)
  have hheld : q.arrive.arrive.held = q.held := by
    rw [arrive_held_of_quiet (arrive_coming_of_quiet h), arrive_held_of_quiet h]
  have hdrain := drain_of_quiet base hcoming (hheld ▸ hlens)
  rw [hheld] at hdrain
  rwa [count_of_quiet h]

/-! ## When few items arrive -/

/-- What the queue held at `q`, and what has arrived since when it is `q'`. -/
def offered (q q' : Inflow α) : Nat := q.held.length + (q.coming.length - q'.coming.length)

theorem length_arrive :
    q.arrive.held.length + q.arrive.coming.length = q.held.length + q.coming.length := by
  have hlength := congrArg List.length q.stream_arrive
  rwa [stream, stream, List.length_append, List.length_append] at hlength

theorem length_coming_arrive : q.arrive.coming.length ≤ q.coming.length := by
  have hlength := q.length_arrive
  have hgrow := q.length_le_arrive
  omega

theorem offered_arrive {q' : Inflow α} (h : q'.coming.length ≤ q.arrive.coming.length) :
    q.arrive.offered q' = q.offered q' := by
  have hlength := q.length_arrive
  have hcoming := q.length_coming_arrive
  unfold offered
  omega

/-- A count below the base is read in one digit, which no arrival tears. -/
theorem count_of_below {base : Nat} (h : q.arrive.arrive.held.length < base) :
    q.count base = q.arrive.arrive.held.length := by
  have hgrow := q.arrive.length_le_arrive
  rw [count, Nat.div_eq_of_lt (by omega), Nat.mod_eq_of_lt h, Nat.zero_mul, Nat.zero_add]

theorem length_coming_ready (base remembered len : Nat) :
    (q.ready base remembered len).2.coming.length ≤ q.coming.length := by
  unfold ready
  split
  · exact Nat.le_trans length_coming_arrive length_coming_arrive
  · exact Nat.le_refl _

theorem length_coming_drain (base remembered : Nat) (lens : List Nat) :
    (q.drain base remembered lens).2.coming.length ≤ q.coming.length := by
  induction lens generalizing remembered q with
  | nil => exact Nat.le_refl _
  | cons len lens ih =>
    have hready := q.length_coming_ready base remembered len
    rw [drain]
    split
    · exact hready
    · exact Nat.le_trans (Nat.le_trans (ih _) length_coming_arrive) hready

/-- A renewed count of fewer items than the base covers what the queue held. -/
theorem ready_of_below {base remembered len : Nat} (hlen : len ≤ q.held.length)
    (hbelow : (q.ready base remembered len).2.held.length < base) :
    len ≤ (q.ready base remembered len).1 := by
  unfold ready at hbelow ⊢
  split
  · next hshort =>
    rw [if_pos hshort] at hbelow
    have hgrow := q.length_le_arrive
    have hgrow' := q.arrive.length_le_arrive
    show len ≤ q.count base
    rw [count_of_below hbelow]
    omega
  · next hcovered => exact Nat.le_of_not_lt hcovered

/-- A queue that holds all the batches, and does not fill up to the base, gives them all. -/
theorem drain_of_held {base remembered : Nat} {lens : List Nat} (hlens : lens.sum ≤ q.held.length)
    (hbelow : q.offered (q.drain base remembered lens).2 < base) :
    ∃ left, (q.drain base remembered lens).1 = some left := by
  induction lens generalizing remembered q with
  | nil => exact ⟨remembered, rfl⟩
  | cons len lens ih =>
    obtain ⟨counted, q₁, hready⟩ : ∃ counted q₁, q.ready base remembered len = (counted, q₁) :=
      ⟨_, _, rfl⟩
    have hstream := congrArg List.length (q.stream_ready base remembered len)
    have hcoming := q.length_coming_ready base remembered len
    have hcovers := @ready_of_below α q base remembered len
    rw [stream, stream, List.length_append, List.length_append] at hstream
    rw [List.sum_cons] at hlens
    rw [drain] at hbelow ⊢
    rw [hready] at hstream hcoming hcovers hbelow ⊢
    dsimp only at hstream hcoming hcovers hbelow ⊢
    unfold offered at hbelow
    -- whatever is held at any time was offered
    have hlen : ¬ counted < len := by
      intro hshort
      rw [if_pos hshort] at hbelow
      dsimp only at hbelow
      have hcount := hcovers (by omega) (by omega)
      omega
    rw [if_neg hlen] at hbelow ⊢
    have harrive := q₁.length_arrive
    have hgrow := q₁.length_le_arrive
    have hpop := q₁.arrive.length_pop len
    have hlater := (q₁.arrive.pop len).length_coming_drain base (counted - len) lens
    change _ ≤ q₁.arrive.coming.length at hlater
    apply ih
    · omega
    · unfold offered
      change _ + (q₁.arrive.coming.length - _) < base
      omega

/-! ## What is still to come -/

/-- At every access to come, what has not arrived yet satisfies `P`. -/
def ComesAs (P : List α → Prop) (q : Inflow α) : Prop :=
  ∀ k, P (q.coming.drop (q.schedule.take k).sum)

section
variable {P : List α → Prop}

theorem ComesAs.now (h : q.ComesAs P) : P q.coming := h 0

theorem ComesAs.arrive (h : q.ComesAs P) : q.arrive.ComesAs P := by
  intro k
  have hsum : (q.schedule.take (k + 1)).sum =
      q.schedule.headD 0 + (q.schedule.tail.take k).sum := by
    cases q.schedule with
    | nil => rw [List.take_nil, List.tail_nil, List.take_nil]; rfl
    | cons n schedule => rfl
  have hnext := h (k + 1)
  rw [hsum, ← List.drop_drop] at hnext
  exact hnext

/-- Taking items does not touch what is to come. -/
theorem ComesAs.pop (h : q.ComesAs P) (n : Nat) : (q.pop n).ComesAs P := h

theorem ComesAs.ready (h : q.ComesAs P) (base remembered len : Nat) :
    (q.ready base remembered len).2.ComesAs P := by
  unfold Inflow.ready
  split
  · exact h.arrive.arrive
  · exact h

theorem ComesAs.drain (h : q.ComesAs P) (base remembered : Nat) (lens : List Nat) :
    (q.drain base remembered lens).2.ComesAs P := by
  induction lens generalizing remembered q with
  | nil => exact h
  | cons len lens ih =>
    have hready := h.ready base remembered len
    rw [Inflow.drain]
    split
    · exact hready
    · exact ih (hready.arrive.pop len) _

end

end Inflow

end Reasoning
