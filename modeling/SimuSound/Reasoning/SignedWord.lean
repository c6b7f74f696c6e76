import Mathlib.Algebra.Order.Ring.Int

/-!
# SignedWord — results that fit into a signed machine word

The operations of a signed type have no result when the exact one does not fit.  So they are done on
integers, and the exact result is stored if it can be.
-/

namespace Reasoning

variable {w : ℕ}

/-- The integer is a value of the signed type of `w` bits. -/
def Fits (w : ℕ) (n : ℤ) : Prop := (BitVec.ofInt w n).toInt = n

instance (w : ℕ) (n : ℤ) : Decidable (Fits w n) := inferInstanceAs (Decidable (_ = _))

/-- The exact result of an operation as a word, or overflow. -/
def checked (n : ℤ) : Option (BitVec w) := if Fits w n then some (BitVec.ofInt w n) else none

theorem fits_toInt (x : BitVec w) : Fits w x.toInt := by
  unfold Fits
  rw [BitVec.ofInt_toInt]

theorem fits_iff {n : ℤ} (hw : 0 < w) : Fits w n ↔ -2 ^ (w - 1) ≤ n ∧ n < 2 ^ (w - 1) := by
  constructor
  · intro h
    have h : (BitVec.ofInt w n).toInt = n := h
    rw [← h]
    exact ⟨BitVec.le_toInt _, BitVec.toInt_lt⟩
  · intro h
    exact BitVec.toInt_ofInt_eq_self hw h.1 h.2

theorem Fits.exists_word {n : ℤ} (h : Fits w n) : ∃ x : BitVec w, x.toInt = n :=
  ⟨BitVec.ofInt w n, h⟩

theorem checked_eq_some {n : ℤ} {x : BitVec w} : checked n = some x ↔ x.toInt = n := by
  unfold checked
  split
  · rename_i hfits
    rw [Option.some.injEq, ← BitVec.toInt_inj, hfits, eq_comm]
  · rename_i hfits
    constructor
    · exact fun h => absurd h.symm (Option.some_ne_none x)
    · intro h
      exact absurd (h ▸ fits_toInt x) hfits

end Reasoning
