import SimuSound.Reasoning.SignedWord
import Mathlib

/-!
# DisparityRoi — the region of a disparity map that is filtered

`computeROI` gives the WLS filter the rectangle in which the block of a pixel and all the blocks
that it is compared with lie in the image.  Its bounds are those of a search range around 0: on the
left the largest disparity counts, on the right the smallest one, whatever their signs.
-/

namespace SimuSound.Stereo

open Reasoning

/-- `cv::Size2i` -/
structure Size2i where
  width : BitVec 32
  height : BitVec 32

/-- What `computeROI` asks a `cv::StereoMatcher` for. -/
structure StereoMatcher where
  minDisparity : BitVec 32
  numDisparities : BitVec 32
  blockSize : BitVec 32

/-- `cv::Rect` -/
structure Rect where
  x : BitVec 32
  y : BitVec 32
  width : BitVec 32
  height : BitVec 32

/-- The rectangle, unless an addition or a subtraction overflows. -/
def computeROI (srcSz : Size2i) (matcherInstance : StereoMatcher) : Option Rect := do
  let minDisparity := matcherInstance.minDisparity
  let numDisparities := matcherInstance.numDisparities
  let blockSize := matcherInstance.blockSize
  let bs2 := blockSize.sdiv 2
  let minD := minDisparity
  let sum : BitVec 32 ← checked (minDisparity.toInt + numDisparities.toInt)
  let maxD : BitVec 32 ← checked (sum.toInt - 1)
  let xmin : BitVec 32 ← checked (maxD.toInt + bs2.toInt)
  let right : BitVec 32 ← checked (srcSz.width.toInt + minD.toInt)
  let xmax : BitVec 32 ← checked (right.toInt - bs2.toInt)
  let ymin := bs2
  let ymax : BitVec 32 ← checked (srcSz.height.toInt - bs2.toInt)
  let width : BitVec 32 ← checked (xmax.toInt - xmin.toInt)
  let height : BitVec 32 ← checked (ymax.toInt - ymin.toInt)
  pure ⟨xmin, ymin, width, height⟩

/-- `cv::Rect::contains` -/
def Rect.Contains (r : Rect) (x y : ℤ) : Prop :=
  (r.x.toInt ≤ x ∧ x < r.x.toInt + r.width.toInt) ∧
    r.y.toInt ≤ y ∧ y < r.y.toInt + r.height.toInt

/-! ## The pixels that can be matched -/

/-- The columns of the block around a column. -/
def window (b x : ℤ) : Set ℤ := Set.Icc (x - b) (x + b)

namespace StereoMatcher

variable (m : StereoMatcher)

/-- How far a block reaches from its centre. -/
def radius : ℤ := m.blockSize.toInt / 2

def minD : ℤ := m.minDisparity.toInt

def maxD : ℤ := m.minDisparity.toInt + m.numDisparities.toInt - 1

end StereoMatcher

/-- The block of the pixel, and its block at every disparity that is searched, lie in the image. -/
structure Matchable (srcSz : Size2i) (m : StereoMatcher) (x y : ℤ) : Prop where
  top : m.radius ≤ y
  bottom : y < srcSz.height.toInt - m.radius
  block : window m.radius x ⊆ Set.Ico 0 srcSz.width.toInt
  blocks : ∀ d ∈ Set.Icc m.minD m.maxD, window m.radius (x - d) ⊆ Set.Ico 0 srcSz.width.toInt

/-- The rectangle is what it is meant to be, and it is not negative when nothing can be matched. -/
structure ExactRoi (srcSz : Size2i) (m : StereoMatcher) (r : Rect) : Prop where
  contains : ∀ x y, r.Contains x y ↔ Matchable srcSz m x y
  empty : (∀ x y, ¬ Matchable srcSz m x y) →
    0 ≤ r.width.toInt ∧ 0 ≤ r.height.toInt ∧ (r.width.toInt = 0 ∨ r.height.toInt = 0)

/-- No intermediate result of `computeROI` overflows. -/
structure NoOverflow (srcSz : Size2i) (m : StereoMatcher) : Prop where
  sum : Fits 32 (m.minD + m.numDisparities.toInt)
  maxD : Fits 32 m.maxD
  xmin : Fits 32 (m.maxD + m.radius)
  right : Fits 32 (srcSz.width.toInt + m.minD)
  xmax : Fits 32 (srcSz.width.toInt + m.minD - m.radius)
  ymax : Fits 32 (srcSz.height.toInt - m.radius)
  width : Fits 32 (srcSz.width.toInt + m.minD - m.radius - (m.maxD + m.radius))
  height : Fits 32 (srcSz.height.toInt - m.radius - m.radius)

/-- How many columns the rectangle should have, and how many rows, if that is not negative. -/
def Size2i.roiColumns (srcSz : Size2i) (m : StereoMatcher) : ℤ :=
  srcSz.width.toInt - 2 * m.radius - (m.numDisparities.toInt - 1)

def Size2i.roiRows (srcSz : Size2i) (m : StereoMatcher) : ℤ :=
  srcSz.height.toInt - 2 * m.radius

section
variable {srcSz : Size2i} {m : StereoMatcher} {r : Rect}

theorem toInt_bs2 (hblock : 0 ≤ m.blockSize.toInt) : (m.blockSize.sdiv 2).toInt = m.radius := by
  have htwo : (2 : BitVec 32).toInt = 2 := by decide
  rw [BitVec.toInt_sdiv_of_ne_or_ne _ _ (Or.inr (by decide)), htwo]
  exact Int.tdiv_eq_ediv_of_nonneg hblock

theorem radius_nonneg (hblock : 0 ≤ m.blockSize.toInt) : 0 ≤ m.radius := by
  unfold StereoMatcher.radius
  omega

/-- The spec of `computeROI`. -/
theorem spec_computeROI (hblock : 0 ≤ m.blockSize.toInt) (h : computeROI srcSz m = some r) :
    NoOverflow srcSz m ∧ r.x.toInt = m.maxD + m.radius ∧ r.y.toInt = m.radius ∧
      r.width.toInt = srcSz.roiColumns m ∧ r.height.toInt = srcSz.roiRows m := by
  have hbs2 := toInt_bs2 hblock
  unfold computeROI at h
  simp only [Option.bind_eq_bind, Option.bind_eq_some_iff, checked_eq_some, hbs2] at h
  obtain ⟨sum, hsum, maxD, hmaxD, xmin, hxmin, right, hright, xmax, hxmax, ymax, hymax, width,
    hwidth, height, hheight, hr⟩ := h
  obtain rfl := Option.some.inj hr
  have hmaxD : maxD.toInt = m.maxD := by rw [hmaxD, hsum, StereoMatcher.maxD]
  rw [hmaxD] at hxmin
  rw [hright] at hxmax
  rw [hxmin, hxmax] at hwidth
  rw [hymax] at hheight
  refine ⟨?_, hxmin, hbs2, ?_, ?_⟩
  · constructor
    · exact hsum ▸ fits_toInt sum
    · exact hmaxD ▸ fits_toInt maxD
    · exact hxmin ▸ fits_toInt xmin
    · exact hright ▸ fits_toInt right
    · exact hxmax ▸ fits_toInt xmax
    · exact hymax ▸ fits_toInt ymax
    · exact hwidth ▸ fits_toInt width
    · exact hheight ▸ fits_toInt height
  · show width.toInt = _
    rw [hwidth]
    unfold Size2i.roiColumns StereoMatcher.maxD
    omega
  · show height.toInt = _
    rw [hheight]
    unfold Size2i.roiRows
    omega

theorem computeROI_isSome (hblock : 0 ≤ m.blockSize.toInt) (h : NoOverflow srcSz m) :
    ∃ r, computeROI srcSz m = some r := by
  have hbs2 := toInt_bs2 hblock
  obtain ⟨sum, hsum⟩ := h.sum.exists_word
  obtain ⟨maxD, hmaxD⟩ := h.maxD.exists_word
  obtain ⟨xmin, hxmin⟩ := h.xmin.exists_word
  obtain ⟨right, hright⟩ := h.right.exists_word
  obtain ⟨xmax, hxmax⟩ := h.xmax.exists_word
  obtain ⟨ymax, hymax⟩ := h.ymax.exists_word
  obtain ⟨width, hwidth⟩ := h.width.exists_word
  obtain ⟨height, hheight⟩ := h.height.exists_word
  refine ⟨⟨xmin, m.blockSize.sdiv 2, width, height⟩, ?_⟩
  unfold computeROI
  simp only [Option.bind_eq_bind, Option.bind_eq_some_iff, checked_eq_some, hbs2]
  refine ⟨sum, hsum, maxD, ?_, xmin, ?_, right, hright, xmax, ?_, ymax, hymax, width, ?_, height,
    ?_, rfl⟩
  · rw [hmaxD, hsum]
    rfl
  · rw [hxmin, hmaxD]
  · rw [hxmax, hright]
  · rw [hwidth, hxmax, hxmin]
  · rw [hheight, hymax]

/-! ## When the rectangle is exact -/

theorem window_subset {b x width : ℤ} (hb : 0 ≤ b) :
    window b x ⊆ Set.Ico 0 width ↔ b ≤ x ∧ x < width - b := by
  unfold window
  rw [Set.Icc_subset_Ico_iff (by omega)]
  omega

/-- Of the blocks that are searched the two at the ends of the range reach farthest. -/
theorem matchable_iff (hblock : 0 ≤ m.blockSize.toInt) (hnum : 1 ≤ m.numDisparities.toInt)
    {x y : ℤ} :
    Matchable srcSz m x y ↔ (m.radius ≤ y ∧ y < srcSz.height.toInt - m.radius) ∧
      max 0 m.maxD + m.radius ≤ x ∧ x < srcSz.width.toInt + min 0 m.minD - m.radius := by
  have hb := radius_nonneg hblock
  have hrange : m.minD ≤ m.maxD := by
    unfold StereoMatcher.minD StereoMatcher.maxD
    omega
  constructor
  · intro h
    have hmid := (window_subset hb).mp h.block
    have hmin := (window_subset hb).mp (h.blocks m.minD ⟨le_refl _, hrange⟩)
    have hmax := (window_subset hb).mp (h.blocks m.maxD ⟨hrange, le_refl _⟩)
    refine ⟨⟨h.top, h.bottom⟩, ?_, ?_⟩
    · omega
    · omega
  · rintro ⟨⟨htop, hbottom⟩, hleft, hright⟩
    constructor
    · exact htop
    · exact hbottom
    · rw [window_subset hb]
      omega
    · rintro d ⟨hlo, hhi⟩
      rw [window_subset hb]
      omega

/-- In exact arithmetic the rectangle holds the pixels that can be matched, and more if the search
range lies on one side of 0. -/
theorem exactRoi_iff (hblock : 0 ≤ m.blockSize.toInt) (hnum : 1 ≤ m.numDisparities.toInt)
    (h : computeROI srcSz m = some r) :
    ExactRoi srcSz m r ↔ (0 ≤ srcSz.roiColumns m ∧ 0 ≤ srcSz.roiRows m) ∧
      (srcSz.roiColumns m = 0 ∨ srcSz.roiRows m = 0 ∨ m.minD ≤ 0 ∧ 0 ≤ m.maxD) := by
  obtain ⟨-, hx, hy, hwidth, hheight⟩ := spec_computeROI hblock h
  have hcols : m.maxD + m.radius + srcSz.roiColumns m =
      srcSz.width.toInt + m.minD - m.radius := by
    unfold Size2i.roiColumns StereoMatcher.maxD StereoMatcher.minD
    omega
  have hrows : m.radius + srcSz.roiRows m = srcSz.height.toInt - m.radius := by
    unfold Size2i.roiRows
    omega
  have hcontains (x y : ℤ) : r.Contains x y ↔
      (m.maxD + m.radius ≤ x ∧ x < srcSz.width.toInt + m.minD - m.radius) ∧
        m.radius ≤ y ∧ y < srcSz.height.toInt - m.radius := by
    rw [Rect.Contains, hx, hy, hwidth, hheight, hcols, hrows]
  constructor
  · intro hexact
    by_cases hany : ∃ x y, Matchable srcSz m x y
    · obtain ⟨x, y, hmatch⟩ := hany
      have hin := (hcontains x y).mp ((hexact.contains x y).mpr hmatch)
      -- the first and the last pixel of a row of the rectangle
      have hfirst := (matchable_iff hblock hnum).mp
        ((hexact.contains (m.maxD + m.radius) y).mp ((hcontains _ _).mpr (by omega)))
      have hlast := (matchable_iff hblock hnum).mp
        ((hexact.contains (srcSz.width.toInt + m.minD - m.radius - 1) y).mp
          ((hcontains _ _).mpr (by omega)))
      refine ⟨⟨?_, ?_⟩, Or.inr (Or.inr ⟨?_, ?_⟩)⟩
      · omega
      · omega
      · omega
      · omega
    · have hempty := hexact.empty fun x y hmatch => hany ⟨x, y, hmatch⟩
      rw [hwidth, hheight] at hempty
      exact ⟨⟨hempty.1, hempty.2.1⟩, hempty.2.2.imp_right Or.inl⟩
  · rintro ⟨hnonneg, hcase⟩
    constructor
    · intro x y
      rw [hcontains, matchable_iff hblock hnum]
      omega
    · intro hnone
      rw [hwidth, hheight]
      refine ⟨hnonneg.1, hnonneg.2, ?_⟩
      by_contra hpos
      -- the corner of the rectangle could be matched
      apply hnone (m.maxD + m.radius) m.radius
      rw [matchable_iff hblock hnum]
      omega

/-- A search range around 0 in an image that is wide enough does not overflow. -/
theorem noOverflow_of_around_zero (hblock : 0 ≤ m.blockSize.toInt)
    (hcols : 0 ≤ srcSz.roiColumns m) (hrows : 0 ≤ srcSz.roiRows m)
    (hrange : m.minD ≤ 0 ∧ 0 ≤ m.maxD) : NoOverflow srcSz m := by
  have hb := radius_nonneg hblock
  have hwidth : srcSz.width.toInt < 2 ^ 31 := BitVec.toInt_lt
  have hheight : srcSz.height.toInt < 2 ^ 31 := BitVec.toInt_lt
  have hnum : m.numDisparities.toInt < 2 ^ 31 := BitVec.toInt_lt
  have hfits {n : ℤ} (hlo : -2 ^ 31 ≤ n) (hhi : n < 2 ^ 31) : Fits 32 n :=
    (fits_iff (by decide)).mpr ⟨hlo, hhi⟩
  unfold Size2i.roiColumns at hcols
  unfold Size2i.roiRows at hrows
  have hmaxD : m.maxD = m.minD + m.numDisparities.toInt - 1 := rfl
  have hminD : -2 ^ 31 ≤ m.minD := BitVec.le_toInt _
  constructor
  all_goals
    apply hfits
    · omega
    · omega

end

/-- `computeROI` gives a rectangle, and it is the right one. -/
def RoiIsExact (srcSz : Size2i) (m : StereoMatcher) : Prop :=
  ∃ r, computeROI srcSz m = some r ∧ ExactRoi srcSz m r

/-- A search range that begins at 16 in an image of the camera. -/
theorem far_range_leaves_image :
    ¬ ∀ (srcSz : Size2i) (m : StereoMatcher), 1 ≤ srcSz.width.toInt → 1 ≤ srcSz.height.toInt →
      1 ≤ m.blockSize.toInt → m.blockSize.toInt % 2 = 1 → 1 ≤ m.numDisparities.toInt →
      RoiIsExact srcSz m := by
  intro h
  obtain ⟨r, hroi, hexact⟩ := h ⟨640, 480⟩ ⟨16, 128, 9⟩ (by decide) (by decide) (by decide)
    (by decide) (by decide)
  rw [exactRoi_iff (by decide) (by decide) hroi] at hexact
  exact absurd hexact (by decide)

/-- The rectangle is the set of the pixels that can be matched, and empty but not negative where
there are none, exactly if the image is not too small for it and either the search range is one
around 0 or the rectangle is empty anyway and no intermediate result overflows. -/
theorem roi_exact_iff (srcSz : Size2i) (m : StereoMatcher) (hblock : 1 ≤ m.blockSize.toInt)
    (hnum : 1 ≤ m.numDisparities.toInt) :
    RoiIsExact srcSz m ↔ (0 ≤ srcSz.roiColumns m ∧ 0 ≤ srcSz.roiRows m) ∧
      (m.minD ≤ 0 ∧ 0 ≤ m.maxD ∨
        (srcSz.roiColumns m = 0 ∨ srcSz.roiRows m = 0) ∧ NoOverflow srcSz m) := by
  have hblock : 0 ≤ m.blockSize.toInt := by omega
  constructor
  · rintro ⟨r, hroi, hexact⟩
    have hno := (spec_computeROI hblock hroi).1
    obtain ⟨hnonneg, hcase⟩ := (exactRoi_iff hblock hnum hroi).mp hexact
    refine ⟨hnonneg, ?_⟩
    rcases hcase with hcols | hrows | hrange
    · exact Or.inr ⟨Or.inl hcols, hno⟩
    · exact Or.inr ⟨Or.inr hrows, hno⟩
    · exact Or.inl hrange
  · rintro ⟨hnonneg, hcase⟩
    have hno : NoOverflow srcSz m := by
      rcases hcase with hrange | hempty
      · exact noOverflow_of_around_zero hblock hnonneg.1 hnonneg.2 hrange
      · exact hempty.2
    obtain ⟨r, hroi⟩ := computeROI_isSome hblock hno
    refine ⟨r, hroi, (exactRoi_iff hblock hnum hroi).mpr ⟨hnonneg, ?_⟩⟩
    rcases hcase with hrange | ⟨hcols | hrows, -⟩
    · exact Or.inr (Or.inr hrange)
    · exact Or.inl hcols
    · exact Or.inr (Or.inl hrows)

/-- The parameters that the program has by default. -/
theorem roi_exact_iff_default : RoiIsExact ⟨640, 480⟩ ⟨0, 128, 9⟩ := by
  apply (roi_exact_iff ⟨640, 480⟩ ⟨0, 128, 9⟩ (by decide) (by decide)).mpr
  constructor
  · decide
  · left
    decide

end SimuSound.Stereo
