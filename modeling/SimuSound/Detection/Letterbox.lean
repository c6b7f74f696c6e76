import Mathlib.Data.Rat.Floor
import Mathlib.Tactic.Linarith
import Mathlib.Tactic.Ring

/-!
# Letterbox — an image resized into the input of the network

`resize_keep_aspect_ratio` scales an image so that it just fits into the destination, and fills what
is left with borders.  A very wide or very narrow image is scaled to no rows or no columns at all,
which `cv::resize` does not accept.
-/

namespace SimuSound.Detection

/-- `cv::Size` -/
structure Size where
  width : ℤ
  height : ℤ
  deriving DecidableEq

def Size.Positive (s : Size) : Prop := 1 ≤ s.width ∧ 1 ≤ s.height

instance (s : Size) : Decidable s.Positive := inferInstanceAs (Decidable (_ ∧ _))

/-- A `double` converted to `int`, which drops the fraction; the products are exact here. -/
def truncate (x : ℚ) : ℤ := if 0 ≤ x then ⌊x⌋ else ⌈x⌉

/-- The size that `resize_keep_aspect_ratio` passes to `cv::resize`. -/
def resizedSize (input dstSize : Size) : Size :=
  let h1 : ℚ := dstSize.width * (input.height / (input.width : ℚ))
  let w2 : ℚ := dstSize.height * (input.width / (input.height : ℚ))
  if h1 ≤ dstSize.height then ⟨dstSize.width, truncate h1⟩ else ⟨truncate w2, dstSize.height⟩

structure Borders where
  top : ℤ
  down : ℤ
  left : ℤ
  right : ℤ

/-- The borders around an image of size `output`; the divisions are those of C. -/
def borders (output dstSize : Size) : Borders where
  top := (dstSize.height - output.height).tdiv 2
  down := (dstSize.height - output.height + 1).tdiv 2
  left := (dstSize.width - output.width).tdiv 2
  right := (dstSize.width - output.width + 1).tdiv 2

/-- `cv::resize` without scale factors: the size of its output, or an exception. -/
def cvResize (dsize : Size) : Option Size := if dsize.Positive then some dsize else none

def copyMakeBorder (s : Size) (b : Borders) : Size where
  width := b.left + s.width + b.right
  height := b.top + s.height + b.down

/-- The size of the image that `resize_keep_aspect_ratio` returns. -/
def resizeKeepAspectRatio (input dstSize : Size) : Option Size := do
  let output ← cvResize (resizedSize input dstSize)
  pure (copyMakeBorder output (borders output dstSize))

/-! ## The scaled size -/

variable {input dstSize : Size}

/-- The width decides if the image, scaled to it, is no higher than the destination. -/
def FitsByWidth (input dstSize : Size) : Prop :=
  dstSize.width * input.height ≤ dstSize.height * input.width

instance (input dstSize : Size) : Decidable (FitsByWidth input dstSize) :=
  inferInstanceAs (Decidable (_ ≤ _))

theorem truncate_scale {a b c : ℤ} (ha : 0 ≤ a) (hb : 0 ≤ b) (hc : 0 < c) :
    truncate ((a : ℚ) * ((b : ℚ) / (c : ℚ))) = a * b / c := by
  obtain ⟨n, rfl⟩ := Int.eq_ofNat_of_zero_le (Int.le_of_lt hc)
  have hfrac : (a : ℚ) * ((b : ℚ) / ((n : ℤ) : ℚ)) = ((a * b : ℤ) : ℚ) / ((n : ℕ) : ℚ) := by
    push_cast
    ring
  have hnonneg : (0 : ℚ) ≤ ((a * b : ℤ) : ℚ) / ((n : ℕ) : ℚ) := by
    apply div_nonneg
    · exact_mod_cast mul_nonneg ha hb
    · exact_mod_cast Nat.zero_le n
  rw [hfrac, truncate, if_pos hnonneg]
  exact Rat.floor_intCast_div_natCast (a * b) n

/-- The comparison of the products, without the division. -/
theorem scale_le_iff {a b c e : ℤ} (hc : 0 < c) :
    (a : ℚ) * ((b : ℚ) / (c : ℚ)) ≤ (e : ℚ) ↔ a * b ≤ e * c := by
  have hc' : (0 : ℚ) < (c : ℚ) := by exact_mod_cast hc
  rw [← mul_div_assoc, div_le_iff₀ hc']
  exact_mod_cast Iff.rfl

/-- The size passed to `cv::resize`, in integers. -/
theorem resizedSize_eq (hinput : input.Positive) (hdst : dstSize.Positive) :
    resizedSize input dstSize =
      if FitsByWidth input dstSize then
        ⟨dstSize.width, dstSize.width * input.height / input.width⟩
      else ⟨dstSize.height * input.width / input.height, dstSize.height⟩ := by
  obtain ⟨hcols, hrows⟩ := hinput
  obtain ⟨hwidth, hheight⟩ := hdst
  have hiff : (dstSize.width : ℚ) * (input.height / (input.width : ℚ)) ≤ dstSize.height ↔
      FitsByWidth input dstSize := scale_le_iff (by omega)
  have hh1 : truncate (dstSize.width * (input.height / (input.width : ℚ))) = _ :=
    truncate_scale (by omega) (by omega) (by omega)
  have hw2 : truncate (dstSize.height * (input.width / (input.height : ℚ))) = _ :=
    truncate_scale (by omega) (by omega) (by omega)
  -- the code compares `h1` before it is truncated
  by_cases hfits : FitsByWidth input dstSize
  · rw [if_pos hfits, ← hh1]
    exact if_pos (hiff.mpr hfits)
  · rw [if_neg hfits, ← hw2]
    exact if_neg (fun h => hfits (hiff.mp h))

/-! ## The geometry -/

/-- Along one axis, `n` pixels lie between two borders in `m`. -/
structure Centred (n m before after : ℤ) : Prop where
  before_nonneg : 0 ≤ before
  after_nonneg : 0 ≤ after
  balanced : |before - after| ≤ 1
  total : before + n + after = m

/-- The image is scaled to what fits, with its aspect ratio up to one pixel, and centred. -/
structure Letterboxed (input dstSize : Size) : Prop where
  positive : (resizedSize input dstSize).Positive
  width_le : (resizedSize input dstSize).width ≤ dstSize.width
  height_le : (resizedSize input dstSize).height ≤ dstSize.height
  tight : (resizedSize input dstSize).width = dstSize.width ∨
    (resizedSize input dstSize).height = dstSize.height
  ratio : |(resizedSize input dstSize).height * input.width -
    (resizedSize input dstSize).width * input.height| < max input.height input.width
  vertical : Centred (resizedSize input dstSize).height dstSize.height
    (borders (resizedSize input dstSize) dstSize).top
    (borders (resizedSize input dstSize) dstSize).down
  horizontal : Centred (resizedSize input dstSize).width dstSize.width
    (borders (resizedSize input dstSize) dstSize).left
    (borders (resizedSize input dstSize) dstSize).right

/-- The scaled image has at least one row and one column. -/
def NotTooThin (input dstSize : Size) : Prop :=
  if FitsByWidth input dstSize then input.width ≤ dstSize.width * input.height
  else input.height ≤ dstSize.height * input.width

/-- Halves of what is left, one of them rounded up. -/
theorem centred_halves {n m : ℤ} (h : n ≤ m) :
    Centred n m ((m - n).tdiv 2) ((m - n + 1).tdiv 2) := by
  have hbefore : (m - n).tdiv 2 = (m - n) / 2 := Int.tdiv_eq_ediv_of_nonneg (by omega)
  have hafter : (m - n + 1).tdiv 2 = (m - n + 1) / 2 := Int.tdiv_eq_ediv_of_nonneg (by omega)
  rw [hbefore, hafter]
  constructor
  · omega
  · omega
  · rw [abs_le]
    omega
  · omega

/-- Dropping the fraction of a scaled length costs less than one pixel. -/
theorem scaled_error {p c : ℤ} (hc : 0 < c) : |p / c * c - p| < c := by
  have hmod := Int.emod_add_mul_ediv p c
  have hlt := Int.emod_lt_of_pos p hc
  have hnonneg := Int.emod_nonneg p (Int.ne_of_gt hc)
  rw [Int.mul_comm c] at hmod
  rw [abs_lt]
  omega

theorem one_le_ediv_iff {p c : ℤ} (hc : 0 < c) : 1 ≤ p / c ↔ c ≤ p := by
  rw [Int.le_ediv_iff_mul_le hc, one_mul]

/-- The size fits into the destination in any case. -/
theorem resizedSize_fits (hinput : input.Positive) (hdst : dstSize.Positive) :
    (resizedSize input dstSize).width ≤ dstSize.width ∧
      (resizedSize input dstSize).height ≤ dstSize.height := by
  obtain ⟨hcols, hrows⟩ := hinput
  rw [resizedSize_eq ⟨hcols, hrows⟩ hdst]
  split
  · rename_i hfits
    refine ⟨le_refl _, ?_⟩
    exact Int.ediv_le_of_le_mul (by omega) hfits
  · rename_i hfits
    refine ⟨?_, le_refl _⟩
    -- `h1` is above the height, and therefore `w2` below the width
    apply Int.ediv_le_of_le_mul (by omega)
    exact Int.le_of_lt (Int.not_le.mp hfits)

theorem resizedSize_positive_iff (hinput : input.Positive) (hdst : dstSize.Positive) :
    (resizedSize input dstSize).Positive ↔ NotTooThin input dstSize := by
  rw [resizedSize_eq hinput hdst]
  unfold NotTooThin
  obtain ⟨hcols, hrows⟩ := hinput
  obtain ⟨hwidth, hheight⟩ := hdst
  split
  · rw [← one_le_ediv_iff (show 0 < input.width by omega)]
    exact and_iff_right hwidth
  · rw [← one_le_ediv_iff (show 0 < input.height by omega)]
    exact and_iff_left hheight

theorem resizedSize_ratio (hinput : input.Positive) (hdst : dstSize.Positive) :
    |(resizedSize input dstSize).height * input.width -
      (resizedSize input dstSize).width * input.height| < max input.height input.width := by
  rw [resizedSize_eq hinput hdst]
  obtain ⟨hcols, hrows⟩ := hinput
  split
  · apply lt_of_lt_of_le _ (le_max_right _ _)
    exact scaled_error (by omega)
  · apply lt_of_lt_of_le _ (le_max_left _ _)
    rw [abs_sub_comm]
    exact scaled_error (by omega)

theorem resizedSize_tight (hinput : input.Positive) (hdst : dstSize.Positive) :
    (resizedSize input dstSize).width = dstSize.width ∨
      (resizedSize input dstSize).height = dstSize.height := by
  rw [resizedSize_eq hinput hdst]
  split
  · exact Or.inl rfl
  · exact Or.inr rfl

/-- The image that is returned fills the destination, unless `cv::resize` throws. -/
theorem resizeKeepAspectRatio_eq (hinput : input.Positive) (hdst : dstSize.Positive) :
    resizeKeepAspectRatio input dstSize =
      if (resizedSize input dstSize).Positive then some dstSize else none := by
  obtain ⟨hwidth, hheight⟩ := resizedSize_fits hinput hdst
  unfold resizeKeepAspectRatio cvResize
  split
  · have hhorizontal := (centred_halves hwidth).total
    have hvertical := (centred_halves hheight).total
    show some (copyMakeBorder _ (borders _ _)) = some dstSize
    unfold copyMakeBorder borders
    rw [hhorizontal, hvertical]
  · rfl

/-- A hairline of one row is scaled to no row. -/
theorem hairline_not_letterboxed :
    ¬ ∀ input dstSize : Size, input.Positive → dstSize.Positive → Letterboxed input dstSize := by
  intro h
  have hthin := (h ⟨1000, 1⟩ ⟨300, 300⟩ (by decide) (by decide)).positive
  rw [resizedSize_positive_iff (by decide) (by decide)] at hthin
  exact absurd hthin (by unfold NotTooThin; decide)

/-- The geometry is as it should be exactly if the scaled image has at least one row and column. -/
theorem letterboxed_iff (input dstSize : Size) (hinput : input.Positive)
    (hdst : dstSize.Positive) : Letterboxed input dstSize ↔ NotTooThin input dstSize := by
  constructor
  · intro h
    exact (resizedSize_positive_iff hinput hdst).mp h.positive
  · intro hthin
    obtain ⟨hwidth, hheight⟩ := resizedSize_fits hinput hdst
    constructor
    · exact (resizedSize_positive_iff hinput hdst).mpr hthin
    · exact hwidth
    · exact hheight
    · exact resizedSize_tight hinput hdst
    · exact resizedSize_ratio hinput hdst
    · exact centred_halves hheight
    · exact centred_halves hwidth

/-- A camera image in the input of the network. -/
theorem letterboxed_iff_camera : Letterboxed ⟨1280, 720⟩ ⟨320, 320⟩ := by
  apply (letterboxed_iff ⟨1280, 720⟩ ⟨320, 320⟩ (by decide) (by decide)).mpr
  unfold NotTooThin
  decide

end SimuSound.Detection
