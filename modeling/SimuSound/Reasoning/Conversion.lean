import SimuSound.Reasoning.SignedWord
import Mathlib.Data.Rat.Floor
import Mathlib.Tactic.Linarith

/-!
# Conversion — single-precision numbers made into signed words

A finite number is a rational; rounding it gives an integer, and the conversion is exact when that
integer is a value of the signed type.  What it gives otherwise is up to the machine.
-/

namespace Reasoning

/-! ## Rounding -/

section
variable {K : Type*} [Field K] [LinearOrder K] [IsStrictOrderedRing K] [FloorRing K] {q : K}

/-- The nearest integer; of two, the one further away from zero. -/
def roundAway (q : K) : ℤ := if 0 ≤ q then ⌊q + 1 / 2⌋ else ⌈q - 1 / 2⌉

theorem le_roundAway_iff {n : ℤ} (hn : 0 < n) : n ≤ roundAway q ↔ (n : K) - 1 / 2 ≤ q := by
  have hn' : (1 : K) ≤ n := by exact_mod_cast hn
  unfold roundAway
  split
  · rw [Int.le_floor]
    exact (sub_le_iff_le_add).symm
  · rename_i hneg
    have hneg : q < 0 := not_le.mp hneg
    apply iff_of_false
    · intro h
      have hlt : (n : K) < q - 1 / 2 + 1 :=
        lt_of_le_of_lt (Int.cast_le.mpr h) (Int.ceil_lt_add_one _)
      linarith
    · intro h
      linarith

theorem lt_roundAway_iff {n : ℤ} (hn : 0 ≤ n) : n < roundAway q ↔ (n : K) + 1 / 2 ≤ q := by
  rw [← Int.add_one_le_iff, le_roundAway_iff (Int.lt_add_one_of_le hn), Int.cast_add, Int.cast_one]
  constructor
  · intro h
    linarith
  · intro h
    linarith

theorem roundAway_nonneg_iff : 0 ≤ roundAway q ↔ -(1 / 2) < q := by
  unfold roundAway
  split
  · rename_i hpos
    apply iff_of_true
    · exact Int.floor_nonneg.mpr (by linarith)
    · linarith
  · show (-1 : ℤ) < _ ↔ _
    rw [Int.lt_ceil, Int.cast_neg, Int.cast_one]
    constructor
    · intro h
      linarith
    · intro h
      linarith

theorem roundAway_intCast (n : ℤ) : roundAway (n : K) = n := by
  have hhalf : (0 : K) ≤ 1 / 2 ∧ (1 / 2 : K) < 1 := by
    constructor <;> norm_num
  unfold roundAway
  split
  · rw [Int.floor_intCast_add, Int.floor_eq_zero_iff.mpr hhalf, Int.add_zero]
  · rw [sub_eq_add_neg, Int.ceil_intCast_add, Int.ceil_neg, Int.floor_eq_zero_iff.mpr hhalf,
      Int.neg_zero, Int.add_zero]

theorem abs_roundAway_sub_le : |(roundAway q : K) - q| ≤ 1 / 2 := by
  rw [abs_le]
  unfold roundAway
  split
  · have hlow := Int.lt_floor_add_one (q + 1 / 2)
    have hhigh := Int.floor_le (q + 1 / 2)
    constructor
    · linarith
    · linarith
  · have hlow := Int.le_ceil (q - 1 / 2)
    have hhigh := Int.ceil_lt_add_one (q - 1 / 2)
    constructor
    · linarith
    · linarith

end

/-! ## Single precision -/

namespace Binary32

/-- The number itself, for all but the infinities and what is not a number. -/
def value (x : Float32) : Option ℚ :=
  match x.toModel.unpack with
  | .infinity _ => none
  | .notANumber => none
  | .zero _ => some 0
  | .finite sign mantissa exponent _ =>
    let magnitude : ℚ :=
      if 0 ≤ exponent then (mantissa * 2 ^ exponent.toNat : ℕ)
      else mkRat mantissa (2 ^ (-exponent).toNat)
    some (match sign with
      | .positive => magnitude
      | .negative => -magnitude)

section
variable {w : ℕ}

/-- A number made into an integer and stored in a word, or `other` when no word has that value. -/
def toWord (other : Float32 → BitVec w) (integral : ℚ → ℤ) (x : Float32) : BitVec w :=
  ((value x).bind fun q => checked (integral q)).getD (other x)

/-- The number whose integer `toWord` stores. -/
def stored (other : Float32 → BitVec w) (integral : ℚ → ℤ) (x : Float32) : ℚ :=
  match value x with
  | some q => if Fits w (integral q) then q else (other x).toInt
  | none => (other x).toInt

theorem toInt_toWord (other : Float32 → BitVec w) {integral : ℚ → ℤ}
    (hintegral : ∀ n : ℤ, integral n = n) (x : Float32) :
    (toWord other integral x).toInt = integral (stored other integral x) := by
  unfold toWord stored
  cases value x with
  | none =>
    rw [hintegral]
    rfl
  | some q =>
    show ((checked (integral q)).getD (other x)).toInt = integral (ite _ _ _)
    by_cases hfits : Fits w (integral q)
    · rw [if_pos hfits, checked, if_pos hfits]
      exact hfits
    · rw [if_neg hfits, checked, if_neg hfits, hintegral]
      rfl

end

end Binary32

end Reasoning
