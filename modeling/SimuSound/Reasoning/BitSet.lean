import Mathlib.Data.Finset.Fold
import Mathlib.Data.Finset.Range

/-!
# BitSet — a machine word as a finite set

Bit `i` of the word is set when `i` is in the set, so that `x | 1 << i` inserts and `x & ~(1 << i)`
erases.  The second half is about what a whole set asks for: the `|` of one word for each element.
-/

namespace Reasoning.BitSet

variable {w v : ℕ}

/-- The positions of the bits that are set. -/
def members (x : BitVec w) : Finset ℕ := (Finset.range w).filter fun i => x.getLsbD i = true

theorem mem_members {x : BitVec w} {i : ℕ} : i ∈ members x ↔ x.getLsbD i = true := by
  rw [members, Finset.mem_filter, Finset.mem_range]
  exact and_iff_right_of_imp BitVec.lt_of_getLsbD

/-- Words with the same bits are the same word. -/
theorem eq_of_getLsbD {x y : BitVec w}
    (h : ∀ k, x.getLsbD k = true ↔ y.getLsbD k = true) : x = y := by
  apply BitVec.eq_of_getLsbD_eq
  exact fun k _ => Bool.eq_iff_iff.mpr (h k)

theorem eq_of_members {x y : BitVec w} (h : members x = members y) : x = y := by
  apply eq_of_getLsbD
  intro k
  rw [← mem_members, ← mem_members, h]

theorem members_zero : members (0 : BitVec w) = ∅ := by
  apply Finset.eq_empty_of_forall_notMem
  intro i hi
  rw [mem_members] at hi
  simp at hi

theorem members_or_twoPow (x : BitVec w) {i : ℕ} (hi : i < w) :
    members (x ||| BitVec.twoPow w i) = insert i (members x) := by
  ext j
  rw [Finset.mem_insert, mem_members, mem_members, BitVec.getLsbD_or, BitVec.getLsbD_twoPow]
  simp only [hi, decide_true, Bool.true_and, Bool.or_eq_true, decide_eq_true_eq]
  rw [or_comm, eq_comm]

theorem members_and_not_twoPow (x : BitVec w) {i : ℕ} (hi : i < w) :
    members (x &&& ~~~ BitVec.twoPow w i) = (members x).erase i := by
  ext j
  rw [Finset.mem_erase, mem_members, mem_members, BitVec.getLsbD_and, BitVec.getLsbD_not,
    BitVec.getLsbD_twoPow]
  simp only [hi, decide_true, Bool.true_and, Bool.and_eq_true, decide_eq_true_eq,
    Bool.not_eq_true', decide_eq_false_iff_not]
  constructor
  · exact fun h => ⟨fun hji => h.2.2 hji.symm, h.1⟩
  · exact fun h => ⟨h.2, BitVec.lt_of_getLsbD h.2, fun hij => h.1 hij.symm⟩

/-- Masking with one bit is a membership test. -/
theorem and_twoPow_ne_zero {x : BitVec w} {i : ℕ} :
    x &&& BitVec.twoPow w i ≠ 0 ↔ i ∈ members x := by
  rw [mem_members, BitVec.and_twoPow]
  constructor
  · intro h
    by_contra hbit
    rw [if_neg hbit] at h
    exact h rfl
  · intro hbit hzero
    rw [if_pos hbit] at hzero
    have hi : i < w := BitVec.lt_of_getLsbD hbit
    have hself : (BitVec.twoPow w i).getLsbD i = true := by
      rw [BitVec.getLsbD_twoPow]
      simp [hi]
    rw [hzero] at hself
    simp at hself

/-- Two words side by side are one set. -/
theorem mem_members_append {x : BitVec w} {y : BitVec v} {i : ℕ} :
    i ∈ members (x ++ y) ↔ if i < v then i ∈ members y else i - v ∈ members x := by
  rw [mem_members, BitVec.getLsbD_append]
  split
  · exact mem_members.symm
  · exact mem_members.symm

/-! ## What the elements of a set ask for -/

variable {ι : Type}

/-- The bits that some element of the set asks for. -/
def gather (E : Finset ι) (f : ι → BitVec v) : BitVec v := E.fold (· ||| ·) 0 f

theorem getLsbD_gather [DecidableEq ι] {E : Finset ι} {f : ι → BitVec v} {k : ℕ} :
    (gather E f).getLsbD k = true ↔ ∃ i ∈ E, (f i).getLsbD k = true := by
  unfold gather
  induction E using Finset.induction with
  | empty => simp
  | insert i E hi ih =>
    rw [Finset.fold_insert hi, BitVec.getLsbD_or, Bool.or_eq_true, ih, Finset.exists_mem_insert]

/-- A loop that collects bits with `|=`. -/
theorem getLsbD_foldl_or (g : ι → BitVec v) (l : List ι) (start : BitVec v) {k : ℕ} :
    (l.foldl (fun acc i => acc ||| g i) start).getLsbD k = true ↔
      start.getLsbD k = true ∨ ∃ i ∈ l, (g i).getLsbD k = true := by
  induction l generalizing start with
  | nil => simp
  | cons i l ih =>
    rw [List.foldl_cons, ih, BitVec.getLsbD_or, Bool.or_eq_true, or_assoc, List.exists_mem_cons_iff]

end Reasoning.BitSet
