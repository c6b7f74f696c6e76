import Mathlib.Data.List.Basic
import Mathlib.Data.BitVec
import Mathlib.Tactic.Common

/-!
# Overlay — a memory after ranges of it have been written

The memory is a function of the address, and a range begins at its address and wraps at the end of
the address space.
-/

namespace Reasoning

variable {w : ℕ} {γ : Type}

/-- The memory with `data` from the address `a` on. -/
def overlay (a : BitVec w) (data : List γ) (f : BitVec w → γ) : BitVec w → γ :=
  fun b => (data[(b - a).toNat]?).getD (f b)

section
variable {a b : BitVec w} {data : List γ} {f : BitVec w → γ}

theorem overlay_nil : overlay a [] f = f := rfl

/-- The address lies in the range at one place. -/
theorem overlay_add {i : ℕ} (hi : i < data.length) (hw : data.length ≤ 2 ^ w) :
    overlay a data f (a + BitVec.ofNat w i) = data[i] := by
  have hoffset : (a + BitVec.ofNat w i - a).toNat = i := by
    rw [BitVec.add_comm, BitVec.add_sub_cancel, BitVec.toNat_ofNat]
    exact Nat.mod_eq_of_lt (Nat.lt_of_lt_of_le hi hw)
  unfold overlay
  rw [hoffset, List.getElem?_eq_getElem hi, Option.getD_some]

theorem overlay_of_le (h : data.length ≤ (b - a).toNat) : overlay a data f b = f b := by
  unfold overlay
  rw [List.getElem?_eq_none h, Option.getD_none]

/-- An address outside the range. -/
theorem overlay_of_forall_ne (h : ∀ i < data.length, b ≠ a + BitVec.ofNat w i) :
    overlay a data f b = f b := by
  apply overlay_of_le
  by_contra hlt
  apply h (b - a).toNat (Nat.not_le.mp hlt)
  rw [BitVec.ofNat_toNat, BitVec.setWidth_eq, BitVec.add_comm, BitVec.sub_add_cancel]

end

theorem toNat_sub_add (a b : BitVec w) {n : ℕ} (hn : n < 2 ^ w) :
    (b - (a + BitVec.ofNat w n)).toNat = ((b - a).toNat + (2 ^ w - n)) % 2 ^ w := by
  have hsub : b - (a + BitVec.ofNat w n) = b - a - BitVec.ofNat w n := by
    rw [BitVec.sub_eq_add_neg, BitVec.sub_eq_add_neg, BitVec.sub_eq_add_neg, BitVec.neg_add,
      BitVec.sub_eq_add_neg, BitVec.add_assoc]
  rw [hsub, BitVec.toNat_sub, BitVec.toNat_ofNat, Nat.mod_eq_of_lt hn, Nat.add_comm]

/-- Two ranges that follow one another are one. -/
theorem overlay_append (a : BitVec w) (xs ys : List γ) (f : BitVec w → γ)
    (hw : (xs ++ ys).length ≤ 2 ^ w) :
    overlay a (xs ++ ys) f = overlay (a + BitVec.ofNat w xs.length) ys (overlay a xs f) := by
  by_cases hys : ys = []
  · rw [hys, List.append_nil, overlay_nil]
  have hpos : 0 < ys.length := List.length_pos_iff.mpr hys
  rw [List.length_append] at hw
  have hxs : xs.length < 2 ^ w := by omega
  funext b
  have hlt := (b - a).isLt
  unfold overlay
  rw [toNat_sub_add a b hxs]
  by_cases hin : (b - a).toNat < xs.length
  · -- the address is too far from the second range
    have hfar : ((b - a).toNat + (2 ^ w - xs.length)) % 2 ^ w =
        (b - a).toNat + (2 ^ w - xs.length) := Nat.mod_eq_of_lt (by omega)
    have hnone : ys[(b - a).toNat + (2 ^ w - xs.length)]? = none := by
      apply List.getElem?_eq_none
      omega
    rw [hfar, hnone, Option.getD_none, List.getElem?_append_left hin]
  · have hnear : ((b - a).toNat + (2 ^ w - xs.length)) % 2 ^ w = (b - a).toNat - xs.length := by
      have hsum : (b - a).toNat + (2 ^ w - xs.length) =
          (b - a).toNat - xs.length + 2 ^ w := by omega
      rw [hsum, Nat.add_mod_right]
      exact Nat.mod_eq_of_lt (by omega)
    have hnone : xs[(b - a).toNat]? = none := List.getElem?_eq_none (by omega)
    rw [hnear, hnone, Option.getD_none, List.getElem?_append_right (by omega)]

/-! ## Several ranges -/

/-- The memory after the ranges have been written one after the other. -/
def overlays (ranges : List (BitVec w × List γ)) (f : BitVec w → γ) : BitVec w → γ :=
  ranges.foldl (fun f range => overlay range.1 range.2 f) f

section
variable {ranges ranges' : List (BitVec w × List γ)} {f : BitVec w → γ} {b : BitVec w}

theorem overlays_cons (range : BitVec w × List γ) :
    overlays (range :: ranges) f = overlays ranges (overlay range.1 range.2 f) := rfl

theorem overlays_append :
    overlays (ranges ++ ranges') f = overlays ranges' (overlays ranges f) := by
  unfold overlays
  rw [List.foldl_append]

/-- What every range avoids is what it was. -/
theorem overlays_of_forall (h : ∀ range ∈ ranges, range.2.length ≤ (b - range.1).toNat) :
    overlays ranges f b = f b := by
  induction ranges generalizing f with
  | nil => rfl
  | cons range ranges ih =>
    rw [overlays_cons, ih fun range hrange => h range (List.mem_cons_of_mem _ hrange),
      overlay_of_le (h range List.mem_cons_self)]

end

/-- Two ranges, each with its length, have no address in common. -/
def RangesApart (range range' : BitVec w × ℕ) : Prop :=
  range.2 ≤ (range'.1 - range.1).toNat ∧ range'.2 ≤ (range.1 - range'.1).toNat

instance (range range' : BitVec w × ℕ) : Decidable (RangesApart range range') :=
  inferInstanceAs (Decidable (_ ∧ _))

/-- An address of the one is beyond the other. -/
theorem RangesApart.le_sub {a b : BitVec w} {n m i : ℕ} (h : RangesApart (a, n) (b, m)) (hi : i < n) :
    m ≤ (a + BitVec.ofNat w i - b).toNat := by
  obtain ⟨hn, hm⟩ : n ≤ (b - a).toNat ∧ m ≤ (a - b).toNat := h
  have ha := a.isLt
  have hb := b.isLt
  have hlt := (b - a).isLt
  have hiw : i < 2 ^ w := by omega
  rw [BitVec.toNat_sub] at hn hm
  rw [BitVec.toNat_sub, BitVec.toNat_add, BitVec.toNat_ofNat, Nat.mod_eq_of_lt hiw,
    Nat.add_mod_mod]
  generalize 2 ^ w = k at ha hb hiw hn hm ⊢
  -- the difference of the two addresses decides which of the remainders wrap
  by_cases hle : b.toNat ≤ a.toNat
  · have hba : k - a.toNat + b.toNat ≤ k := by omega
    have hab : k - b.toNat + a.toNat = a.toNat - b.toNat + k := by omega
    rw [hab, Nat.add_mod_right, Nat.mod_eq_of_lt (by omega)] at hm
    by_cases heq : k - a.toNat + b.toNat = k
    · rw [heq, Nat.mod_self] at hn
      omega
    · rw [Nat.mod_eq_of_lt (by omega)] at hn
      have hsum : k - b.toNat + (a.toNat + i) = a.toNat + i - b.toNat + k := by omega
      rw [hsum, Nat.add_mod_right, Nat.mod_eq_of_lt (by omega)]
      omega
  · have hba : k - a.toNat + b.toNat = b.toNat - a.toNat + k := by omega
    rw [hba, Nat.add_mod_right, Nat.mod_eq_of_lt (by omega)] at hn
    rw [Nat.mod_eq_of_lt (by omega)] at hm
    rw [Nat.mod_eq_of_lt (by omega)]
    omega

/-- When the ranges are apart, each of them is read back. -/
theorem overlays_add {ranges : List (BitVec w × List γ)} {range : BitVec w × List γ}
    {f : BitVec w → γ} {i : ℕ}
    (hapart : (ranges.map fun range => (range.1, range.2.length)).Pairwise RangesApart)
    (hmem : range ∈ ranges) (hi : i < range.2.length) (hw : range.2.length ≤ 2 ^ w) :
    overlays ranges f (range.1 + BitVec.ofNat w i) = range.2[i] := by
  induction ranges generalizing f with
  | nil => exact absurd hmem List.not_mem_nil
  | cons first ranges ih =>
    rw [List.map_cons, List.pairwise_cons] at hapart
    rw [overlays_cons]
    rcases List.mem_cons.mp hmem with rfl | hmem
    · -- nothing that follows covers the address
      rw [overlays_of_forall, overlay_add hi hw]
      intro other hother
      have hone := hapart.1 (other.1, other.2.length) (List.mem_map.mpr ⟨other, hother, rfl⟩)
      exact hone.le_sub hi
    · exact ih hapart.2 hmem

end Reasoning
