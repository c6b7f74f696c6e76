import SimuSound.Detection.Letterbox
import SimuSound.Reasoning.Conversion

/-!
# BoxDrawing — boxes found in one letterbox and drawn in another

The network sees the camera image in a small letterbox, and `test_driver` draws the boxes on the
same image in a large one, with the coordinates multiplied by the ratio of the two.  Both round the
size of the image and its border, and the coordinates are rounded twice on their way.
-/

namespace SimuSound.Detection

open Reasoning

/-- Where a coordinate of the image is after it was scaled from `size` to `scaled` pixels and put
behind a border.  The pixel with index `i` reaches from `i` to `i + 1`. -/
def placed (border scaled size : ℤ) (x : ℚ) : ℚ := border + x * scaled / size

def shownRow (image dstSize : Size) (y : ℚ) : ℚ :=
  placed (borders (resizedSize image dstSize) dstSize).top (resizedSize image dstSize).height
    image.height y

def shownColumn (image dstSize : Size) (x : ℚ) : ℚ :=
  placed (borders (resizedSize image dstSize) dstSize).left (resizedSize image dstSize).width
    image.width x

/-! ## Along one axis -/

section
variable {n m size other : ℤ} {x : ℚ}

/-- The border before an image that is centred. -/
def before (n scaled : ℤ) : ℤ := (n - scaled).tdiv 2

/-- A length that is scaled down with the other one, which fills the destination. -/
theorem scaled_bounds (hn : 0 < n) (hsize : 0 < size) (hle : size ≤ other) :
    0 ≤ n * size / other ∧ n * size / other ≤ n ∧
      ((n * size / other : ℤ) : ℚ) ≤ n * (size / other) ∧
      n * (size / other) < ((n * size / other : ℤ) : ℚ) + 1 := by
  have hother : 0 < other := by omega
  have hexact : (n : ℚ) * (size / other) = ((n * size : ℤ) : ℚ) / other := by
    push_cast
    ring
  have hother' : (0 : ℚ) < other := by exact_mod_cast hother
  refine ⟨?_, ?_, ?_, ?_⟩
  · exact Int.ediv_nonneg (Int.mul_nonneg (by omega) (by omega)) (by omega)
  · apply Int.ediv_le_of_le_mul hother
    exact Int.mul_le_mul_of_nonneg_left hle (by omega)
  · rw [hexact, le_div_iff₀ hother']
    exact_mod_cast Int.ediv_mul_le (n * size) (by omega)
  · rw [hexact, div_lt_iff₀ hother']
    exact_mod_cast Int.lt_ediv_add_one_mul_self (n * size) hother

/-- Half of what is left, less at most half a pixel. -/
theorem before_bounds {scaled : ℤ} (h : scaled ≤ n) :
    ((n : ℚ) - scaled - 1) / 2 ≤ before n scaled ∧ (before n scaled : ℚ) ≤ (n - scaled) / 2 := by
  have hhalf : before n scaled = (n - scaled) / 2 := Int.tdiv_eq_ediv_of_nonneg (by omega)
  have hlow : n - scaled - 1 ≤ 2 * before n scaled := by omega
  have hhigh : 2 * before n scaled ≤ n - scaled := by omega
  have hlow' : ((n - scaled - 1 : ℤ) : ℚ) ≤ (2 * before n scaled : ℤ) := by exact_mod_cast hlow
  have hhigh' : ((2 * before n scaled : ℤ) : ℚ) ≤ (n - scaled : ℤ) := by exact_mod_cast hhigh
  push_cast at hlow' hhigh'
  constructor
  · linarith
  · linarith

/-- The axis that is scaled down: within one pixel of the small letterbox. -/
theorem placed_near_of_scaled (hn : 0 < n) (hnm : n ≤ m) (hsize : 0 < size) (hle : size ≤ other)
    (hx : 0 ≤ x ∧ x ≤ size) :
    |(m / n : ℚ) * placed (before n (n * size / other)) (n * size / other) size x -
      placed (before m (m * size / other)) (m * size / other) size x| < m / n := by
  obtain ⟨hn₀, hn₁, hnlow, hnhigh⟩ := scaled_bounds hn hsize hle
  obtain ⟨hm₀, hm₁, hmlow, hmhigh⟩ := scaled_bounds (by omega : 0 < m) hsize hle
  obtain ⟨hbn, hbn'⟩ := before_bounds hn₁
  obtain ⟨hbm, hbm'⟩ := before_bounds hm₁
  generalize before n (n * size / other) = bn at hbn hbn' ⊢
  generalize before m (m * size / other) = bm at hbm hbm' ⊢
  generalize n * size / other = sn at *
  generalize m * size / other = sm at *
  have hn' : (0 : ℚ) < n := by exact_mod_cast hn
  have hnm' : (n : ℚ) ≤ m := by exact_mod_cast hnm
  have hsize' : (0 : ℚ) < size := by exact_mod_cast hsize
  obtain ⟨k, hk⟩ : ∃ k : ℚ, (m / n : ℚ) = k := ⟨_, rfl⟩
  have hm : (m : ℚ) = k * n := by
    rw [← hk]
    exact (div_mul_cancel₀ _ hn'.ne').symm
  have hk₁ : 1 ≤ k := by
    rw [← hk]
    exact (one_le_div hn').mpr hnm'
  obtain ⟨t, ht⟩ : ∃ t : ℚ, x / size = t := ⟨_, rfl⟩
  have ht₀ : 0 ≤ t := ht ▸ div_nonneg hx.1 hsize'.le
  have ht₁ : t ≤ 1 := ht ▸ (div_le_one hsize').mpr hx.2
  have hplaced (b s : ℤ) : placed b s size x = b + t * s := by
    rw [placed, ← ht]
    ring
  rw [hk, hplaced, hplaced]
  -- what the two scaled sizes differ by, in pixels of the large letterbox
  obtain ⟨d, hd⟩ : ∃ d : ℚ, k * sn - sm = d := ⟨_, rfl⟩
  have hkn : k * (n * (size / other)) = m * (size / other) := by
    rw [hm]
    ring
  have hdhigh : d < 1 := by
    have hscale := mul_le_mul_of_nonneg_left hnlow (by linarith : (0 : ℚ) ≤ k)
    linarith
  have hdlow : -k < d := by
    have hscale := mul_lt_mul_of_pos_left hnhigh (by linarith : (0 : ℚ) < k)
    linarith
  have hhalf : |t - 1 / 2| ≤ 1 / 2 := by
    rw [abs_le]
    constructor
    · linarith
    · linarith
  have hd' : |d| < k := by
    rw [abs_lt]
    exact ⟨hdlow, by linarith⟩
  have hmiddle : |(t - 1 / 2) * d| < k / 2 := by
    calc |(t - 1 / 2) * d| = |t - 1 / 2| * |d| := abs_mul _ _
      _ ≤ 1 / 2 * |d| := mul_le_mul_of_nonneg_right hhalf (abs_nonneg d)
      _ < k / 2 := by linarith
  obtain ⟨hlow, hhigh⟩ := abs_lt.mp hmiddle
  have hborder := mul_le_mul_of_nonneg_left hbn (by linarith : (0 : ℚ) ≤ k)
  have hborder' := mul_le_mul_of_nonneg_left hbn' (by linarith : (0 : ℚ) ≤ k)
  have hwhole : k * (bn + t * sn) - (bm + t * sm) =
      k * (bn + sn / 2) - (bm + sm / 2) + (t - 1 / 2) * d := by
    rw [← hd]
    ring
  rw [hwhole, abs_lt]
  constructor
  · linarith
  · linarith

/-- The axis that fills both letterboxes. -/
theorem placed_near_of_full (hn : 0 < n) (hnm : n ≤ m) :
    |(m / n : ℚ) * placed (before n n) n size x - placed (before m m) m size x| < m / n := by
  have hn' : (0 : ℚ) < n := by exact_mod_cast hn
  have hm' : (0 : ℚ) < m := by exact_mod_cast (by omega : 0 < m)
  have hnone (l : ℤ) : before l l = 0 := by rw [before, sub_self, Int.zero_tdiv]
  have hsame : (m / n : ℚ) * placed (before n n) n size x = placed (before m m) m size x := by
    rw [placed, placed, hnone, hnone, Int.cast_zero, zero_add, zero_add]
    field_simp
  rw [hsame, sub_self, abs_zero]
  exact div_pos hm' hn'

end

/-! ## Both axes -/

section
variable {image : Size} {n m : ℤ} {x y : ℚ}

/-- In a square letterbox the longer side of the image decides. -/
theorem fitsByWidth_square (hn : 0 < n) :
    FitsByWidth image ⟨n, n⟩ ↔ image.height ≤ image.width :=
  Int.mul_le_mul_left hn

theorem square_positive (hn : 0 < n) : Size.Positive ⟨n, n⟩ := ⟨hn, hn⟩

theorem shownRow_near (himage : image.Positive) (hn : 0 < n) (hnm : n ≤ m)
    (hy : 0 ≤ y ∧ y ≤ image.height) :
    |(m / n : ℚ) * shownRow image ⟨n, n⟩ y - shownRow image ⟨m, m⟩ y| < m / n := by
  have hm : 0 < m := by omega
  obtain ⟨hcols, hrows⟩ := himage
  unfold shownRow
  rw [resizedSize_eq ⟨hcols, hrows⟩ (square_positive hn),
    resizedSize_eq ⟨hcols, hrows⟩ (square_positive hm)]
  simp only [fitsByWidth_square hn, fitsByWidth_square hm]
  split
  · next hle => exact placed_near_of_scaled hn hnm hrows hle hy
  · exact placed_near_of_full hn hnm

theorem shownColumn_near (himage : image.Positive) (hn : 0 < n) (hnm : n ≤ m)
    (hx : 0 ≤ x ∧ x ≤ image.width) :
    |(m / n : ℚ) * shownColumn image ⟨n, n⟩ x - shownColumn image ⟨m, m⟩ x| < m / n := by
  have hm : 0 < m := by omega
  obtain ⟨hcols, hrows⟩ := himage
  unfold shownColumn
  rw [resizedSize_eq ⟨hcols, hrows⟩ (square_positive hn),
    resizedSize_eq ⟨hcols, hrows⟩ (square_positive hm)]
  simp only [fitsByWidth_square hn, fitsByWidth_square hm]
  split
  · exact placed_near_of_full hn hnm
  · next hlt =>
    have hle : image.width ≤ image.height := by omega
    exact placed_near_of_scaled hn hnm hcols hle hx

/-! ## The way of a coordinate -/

theorem abs_truncate_sub_lt (v : ℚ) : |(truncate v : ℚ) - v| < 1 := by
  rw [abs_lt]
  unfold truncate
  split
  · have hlow := Int.lt_floor_add_one v
    have hhigh := Int.floor_le v
    constructor
    · linarith
    · linarith
  · have hlow := Int.le_ceil v
    have hhigh := Int.ceil_lt_add_one v
    constructor
    · linarith
    · linarith

/-- What becomes of a coordinate of the network's input.  `evaluate_direct` rounds the product of
the location and the size of the input, which is `e` off at most, and `draw_detected_objects`
truncates the product with `dist_mult`, which is `η` off at most. -/
def DrawnAt (distMult e η found : ℚ) (drawn : ℤ) : Prop :=
  ∃ u v : ℚ, |u - found| ≤ e ∧ |v - roundAway u * distMult| ≤ η ∧ drawn = truncate v

theorem DrawnAt.near {distMult e η found shown : ℚ} {drawn : ℤ} (hpos : 0 < distMult)
    (h : DrawnAt distMult e η found drawn) (hshown : |distMult * found - shown| < distMult) :
    |drawn - shown| < distMult * (3 / 2 + e) + 1 + η := by
  obtain ⟨u, v, hu, hv, rfl⟩ := h
  have htruncated := abs_truncate_sub_lt v
  have hrounded := abs_roundAway_sub_le (q := u)
  rw [abs_lt] at htruncated hshown
  rw [abs_le] at hrounded hu hv
  -- the errors made before the multiplication count `distMult` times
  have hlow := mul_le_mul_of_nonneg_left (add_le_add hrounded.1 hu.1) hpos.le
  have hhigh := mul_le_mul_of_nonneg_left (add_le_add hrounded.2 hu.2) hpos.le
  rw [abs_lt]
  constructor
  · linarith
  · linarith

end

end SimuSound.Detection
