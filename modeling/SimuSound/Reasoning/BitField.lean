import Mathlib.Data.BitVec
import Mathlib.Tactic.Common

/-!
# BitField — named runs of bits inside a register word

A hardware register is laid out as adjacent bit fields, and a driver reads and assigns them one at a
time.  Assigning truncates the value to the width of the field, as C does.
-/

namespace Reasoning

/-- A word has a bit of two masks together exactly if it has one of either. -/
theorem and_or_ne_zero {w : Nat} {a x y : BitVec w} :
    a &&& (x ||| y) ≠ 0 ↔ a &&& x ≠ 0 ∨ a &&& y ≠ 0 := by
  have hor : (a &&& x) ||| (a &&& y) = 0 ↔ a &&& x = 0 ∧ a &&& y = 0 := BitVec.or_eq_zero_iff
  rw [BitVec.and_or_distrib_left, ne_eq, hor, not_and_or]

/-- A run of `width` bits from bit `lsb` of a `w`-bit word. -/
structure BitField (w : Nat) where
  lsb : Nat
  width : Nat
  fits : lsb + width ≤ w

namespace BitField

variable {w : Nat}

/-- Bit `i` of the word belongs to the field. -/
def Covers (f : BitField w) (i : Nat) : Prop := f.lsb ≤ i ∧ i < f.lsb + f.width

instance (f : BitField w) (i : Nat) : Decidable (f.Covers i) := inferInstanceAs (Decidable (_ ∧ _))

/-- The low `width` bits, all ones. -/
def ones (f : BitField w) : BitVec w := (BitVec.allOnes f.width).setWidth w

def get (f : BitField w) (b : BitVec w) : BitVec w := (b >>> f.lsb) &&& f.ones

def set (f : BitField w) (v b : BitVec w) : BitVec w :=
  (b &&& ~~~(f.ones <<< f.lsb)) ||| ((v &&& f.ones) <<< f.lsb)

/-- Two fields share no bit. -/
def Apart (f g : BitField w) : Prop := f.lsb + f.width ≤ g.lsb ∨ g.lsb + g.width ≤ f.lsb

instance (f g : BitField w) : Decidable (f.Apart g) := inferInstanceAs (Decidable (_ ∨ _))

theorem getLsbD_ones (f : BitField w) (i : Nat) : f.ones.getLsbD i = decide (i < f.width) := by
  have hfits := f.fits
  simp only [ones, BitVec.getLsbD_setWidth, BitVec.getLsbD_allOnes]
  by_cases hi : i < f.width
  · simp only [hi, decide_true, Bool.and_true, decide_eq_true_eq]
    omega
  · simp only [hi, decide_false, Bool.and_false]

theorem getLsbD_get (f : BitField w) (b : BitVec w) (i : Nat) :
    (f.get b).getLsbD i = (b.getLsbD (f.lsb + i) && decide (i < f.width)) := by
  simp only [get, BitVec.getLsbD_and, BitVec.getLsbD_ushiftRight, getLsbD_ones]

theorem getLsbD_set (f : BitField w) (v b : BitVec w) (i : Nat) (hi : i < w) :
    (f.set v b).getLsbD i = if f.Covers i then v.getLsbD (i - f.lsb) else b.getLsbD i := by
  simp only [set, BitVec.getLsbD_or, BitVec.getLsbD_and, BitVec.getLsbD_not,
    BitVec.getLsbD_shiftLeft, getLsbD_ones, hi, decide_true, Bool.true_and]
  by_cases hc : f.Covers i
  · have hlo : ¬ i < f.lsb := Nat.not_lt.mpr hc.1
    have hin : i - f.lsb < f.width := by have := hc.2; omega
    simp [if_pos hc, hlo, hin]
  · rw [if_neg hc]
    by_cases hlo : i < f.lsb
    · simp [hlo]
    · have hin : ¬ i - f.lsb < f.width := fun h => hc ⟨Nat.not_lt.mp hlo, by omega⟩
      simp [hlo, hin]

/-- A field reads back what was assigned to it, truncated to its width. -/
theorem get_set (f : BitField w) (v b : BitVec w) : f.get (f.set v b) = v &&& f.ones := by
  apply BitVec.eq_of_getLsbD_eq
  intro i hi
  rw [getLsbD_get, BitVec.getLsbD_and, getLsbD_ones]
  have hfits := f.fits
  by_cases hw : i < f.width
  · rw [getLsbD_set f v b (f.lsb + i) (by omega), if_pos ⟨by omega, by omega⟩,
      Nat.add_sub_cancel_left]
  · simp only [hw, decide_false, Bool.and_false]

/-- Assigning one field leaves every field apart from it alone. -/
theorem get_set_of_apart (f g : BitField w) (h : f.Apart g) (v b : BitVec w) :
    g.get (f.set v b) = g.get b := by
  apply BitVec.eq_of_getLsbD_eq
  intro i hi
  rw [getLsbD_get, getLsbD_get]
  have hg := g.fits
  by_cases hw : i < g.width
  · unfold Apart at h
    rw [getLsbD_set f v b (g.lsb + i) (by omega), if_neg (by unfold Covers; omega)]
  · simp only [hw, decide_false, Bool.and_false]

/-- Assigning the same twice is assigning it once. -/
theorem set_set (f : BitField w) (v b : BitVec w) : f.set v (f.set v b) = f.set v b := by
  apply BitVec.eq_of_getLsbD_eq
  intro i hi
  rw [getLsbD_set f v _ i hi, getLsbD_set f v b i hi]
  by_cases hc : f.Covers i
  · rw [if_pos hc, if_pos hc]
  · rw [if_neg hc]

/-- Fields that share no bit are assigned in either order. -/
theorem set_comm_of_apart (f g : BitField w) (h : f.Apart g) (u v b : BitVec w) :
    f.set u (g.set v b) = g.set v (f.set u b) := by
  apply BitVec.eq_of_getLsbD_eq
  intro i hi
  rw [getLsbD_set f u _ i hi, getLsbD_set g v _ i hi, getLsbD_set g v _ i hi,
    getLsbD_set f u _ i hi]
  by_cases hf : f.Covers i
  · have hg : ¬ g.Covers i := by unfold Apart at h; unfold Covers at hf ⊢; omega
    rw [if_pos hf, if_neg hg, if_pos hf]
  · rw [if_neg hf, if_neg hf]

theorem getLsbD_set_of_not_covers (f : BitField w) (v b : BitVec w) (i : Nat)
    (h : ¬ f.Covers i) : (f.set v b).getLsbD i = b.getLsbD i := by
  by_cases hi : i < w
  · rw [getLsbD_set f v b i hi, if_neg h]
  · rw [BitVec.getLsbD_of_ge _ _ (by omega), BitVec.getLsbD_of_ge _ _ (by omega)]

/-- The bits of the field within the word. -/
def mask (f : BitField w) : BitVec w := f.ones <<< f.lsb

theorem getLsbD_mask (f : BitField w) (i : Nat) (hi : i < w) :
    f.mask.getLsbD i = decide (f.Covers i) := by
  rw [mask, BitVec.getLsbD_shiftLeft, getLsbD_ones, Bool.eq_iff_iff]
  simp only [Bool.and_eq_true, Bool.not_eq_true', decide_eq_true_eq, decide_eq_false_iff_not]
  unfold Covers
  omega

/-! ## Words that agree in some bits -/

/-- The words have the same bits where `m` has ones. -/
def AgreeOn (m a b : BitVec w) : Prop := a &&& m = b &&& m

instance (m a b : BitVec w) : Decidable (AgreeOn m a b) := inferInstanceAs (Decidable (_ = _))

theorem agreeOn_refl (m a : BitVec w) : AgreeOn m a a := rfl

theorem agreeOn_allOnes (a b : BitVec w) : AgreeOn (BitVec.allOnes w) a b ↔ a = b := by
  rw [AgreeOn, BitVec.and_allOnes, BitVec.and_allOnes]

theorem agreeOn_iff (m a b : BitVec w) :
    AgreeOn m a b ↔ ∀ i < w, m.getLsbD i = true → a.getLsbD i = b.getLsbD i := by
  constructor
  · intro h i _ hm
    have hbit := congrArg (fun v => v.getLsbD i) h
    simp only [BitVec.getLsbD_and, hm, Bool.and_true] at hbit
    exact hbit
  · intro h
    apply BitVec.eq_of_getLsbD_eq
    intro i hi
    rw [BitVec.getLsbD_and, BitVec.getLsbD_and]
    cases hm : m.getLsbD i with
    | false => rw [Bool.and_false, Bool.and_false]
    | true => rw [h i hi hm]

theorem agreeOn_or (m m' a b : BitVec w) :
    AgreeOn (m ||| m') a b ↔ AgreeOn m a b ∧ AgreeOn m' a b := by
  simp only [agreeOn_iff, BitVec.getLsbD_or, Bool.or_eq_true]
  constructor
  · intro h
    exact ⟨fun i hi hm => h i hi (Or.inl hm), fun i hi hm => h i hi (Or.inr hm)⟩
  · intro h i hi hm
    exact hm.elim (h.1 i hi) (h.2 i hi)

/-- A field has the same contents in words that agree on its bits. -/
theorem get_eq_get_iff (f : BitField w) (a b : BitVec w) :
    f.get a = f.get b ↔ AgreeOn f.mask a b := by
  have hfits := f.fits
  rw [agreeOn_iff]
  constructor
  · intro h i hi hm
    rw [getLsbD_mask f i hi, decide_eq_true_eq] at hm
    unfold Covers at hm
    have hbit := congrArg (fun v => v.getLsbD (i - f.lsb)) h
    simp only [getLsbD_get, show i - f.lsb < f.width by omega, decide_true, Bool.and_true,
      Nat.add_sub_cancel' hm.1] at hbit
    exact hbit
  · intro h
    apply BitVec.eq_of_getLsbD_eq
    intro i hi
    rw [getLsbD_get, getLsbD_get]
    by_cases hw : i < f.width
    · have hmask : f.mask.getLsbD (f.lsb + i) = true := by
        rw [getLsbD_mask f _ (by omega), decide_eq_true_eq]
        unfold Covers
        omega
      rw [h (f.lsb + i) (by omega) hmask]
    · simp only [hw, decide_false, Bool.and_false]

theorem agreeOn_zero (a b : BitVec w) : AgreeOn 0#w a b := by
  rw [AgreeOn, BitVec.and_zero, BitVec.and_zero]

/-- Words that agree on every bit are equal. -/
theorem AgreeOn.eq {m a b : BitVec w} (h : AgreeOn m a b) (hm : m = BitVec.allOnes w) : a = b :=
  (agreeOn_allOnes a b).mp (hm ▸ h)

/-- The same assignment to two words makes them agree on the bits of the field too. -/
theorem AgreeOn.set {m a b : BitVec w} (h : AgreeOn m a b) (f : BitField w) (v : BitVec w) :
    AgreeOn (m ||| f.mask) (f.set v a) (f.set v b) := by
  rw [agreeOn_iff] at h ⊢
  intro i hi hm
  rw [getLsbD_set f v a i hi, getLsbD_set f v b i hi]
  by_cases hcovers : f.Covers i
  · rw [if_pos hcovers, if_pos hcovers]
  · rw [BitVec.getLsbD_or, getLsbD_mask f i hi, decide_eq_false hcovers, Bool.or_false] at hm
    rw [if_neg hcovers, if_neg hcovers, h i hi hm]

/-- Assigning a field changes none of the bits outside it. -/
theorem agreeOn_set (f : BitField w) {m : BitVec w} (h : m &&& f.mask = 0) (v b : BitVec w) :
    AgreeOn m (f.set v b) b := by
  rw [agreeOn_iff]
  intro i hi hm
  apply getLsbD_set_of_not_covers
  intro hcovers
  have hbit := congrArg (fun u => u.getLsbD i) h
  simp [hm, getLsbD_mask f i hi, hcovers] at hbit

/-! ## Bits that clear themselves -/

/-- Where `keep` has ones, `b'` has the bits of `b`, except that those of `strobes` may have been
cleared. -/
def Kept (keep strobes b b' : BitVec w) : Prop :=
  ∀ i < w, keep.getLsbD i = true →
    b'.getLsbD i = b.getLsbD i ∨ strobes.getLsbD i = true ∧ b'.getLsbD i = false

theorem kept_refl (keep strobes b : BitVec w) : Kept keep strobes b b := fun _ _ _ => Or.inl rfl

theorem Kept.trans {keep strobes a b c : BitVec w} (hab : Kept keep strobes a b)
    (hbc : Kept keep strobes b c) : Kept keep strobes a c := by
  intro i hi hkeep
  rcases hbc i hi hkeep with hsame | hcleared
  · rw [hsame]
    exact hab i hi hkeep
  · exact Or.inr hcleared

theorem Kept.of_allOnes {strobes a b : BitVec w} (h : Kept (BitVec.allOnes w) strobes a b)
    (keep : BitVec w) : Kept keep strobes a b := by
  intro i hi _
  apply h i hi
  simp [hi]

/-- Assigning a field keeps the bits outside it. -/
theorem kept_set (f : BitField w) {keep : BitVec w} (h : keep &&& f.mask = 0)
    (strobes v b : BitVec w) :
    Kept keep strobes b (f.set v b) := by
  intro i hi hkeep
  exact Or.inl ((agreeOn_iff _ _ _).mp (agreeOn_set f h v b) i hi hkeep)

/-- A field without strobes is kept as a whole. -/
theorem Kept.get_eq {keep strobes a b : BitVec w} (h : Kept keep strobes a b) (f : BitField w)
    (hkeep : f.mask &&& keep = f.mask) (hstrobes : f.mask &&& strobes = 0) : f.get b = f.get a := by
  rw [get_eq_get_iff, agreeOn_iff]
  intro i hi hmask
  have hk := congrArg (fun u => u.getLsbD i) hkeep
  have hs := congrArg (fun u => u.getLsbD i) hstrobes
  simp only [BitVec.getLsbD_and, hmask, Bool.true_and] at hk hs
  rcases h i hi hk with hsame | ⟨hstrobe, -⟩
  · exact hsame
  · rw [hstrobe] at hs
    simp at hs

end BitField

end Reasoning
