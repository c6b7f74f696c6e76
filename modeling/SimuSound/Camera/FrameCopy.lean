import SimuSound.Reasoning.Mutex
import Mathlib.Data.List.Range
import Mathlib.Tactic.Ring

/-!
# FrameCopy — how a MIPI frame gets from the callback to the caller's images

`video_buffer_callback` copies the two halves of a top-bottom frame into `image0_data` and
`image1_data`, `get_images` copies these two into the caller's images; each does both copies under
the mutex, byte by byte.
-/

namespace SimuSound.Camera

open Reasoning

abbrev Byte := BitVec 8

/-- The bytes behind a pointer. -/
abbrev Memory := Nat → Byte

/-- The memory blocks of `PORT_USERDATA` that the constructor allocates. -/
structure UserData where
  image0Data : Memory
  image1Data : Memory

/-- The `data` of the two images that the caller passes. -/
structure Images where
  imgL : Memory
  imgR : Memory

/-- A memory block among those of the images and of the user data. -/
structure Block where
  get : Images × UserData → Memory
  put : Images × UserData → Memory → Images × UserData
  put_get : ∀ m, put m (get m) = m
  get_put : ∀ m v, get (put m v) = v
  put_put : ∀ m v w, put (put m v) w = put m w

def image0Data : Block where
  get m := m.2.image0Data
  put m v := (m.1, { m.2 with image0Data := v })
  put_get _ := rfl
  get_put _ _ := rfl
  put_put _ _ _ := rfl

def image1Data : Block where
  get m := m.2.image1Data
  put m v := (m.1, { m.2 with image1Data := v })
  put_get _ := rfl
  get_put _ _ := rfl
  put_put _ _ _ := rfl

def imgL : Block where
  get m := m.1.imgL
  put m v := ({ m.1 with imgL := v }, m.2)
  put_get _ := rfl
  get_put _ _ := rfl
  put_put _ _ _ := rfl

def imgR : Block where
  get m := m.1.imgR
  put m v := ({ m.1 with imgR := v }, m.2)
  put_get _ := rfl
  get_put _ _ := rfl
  put_put _ _ _ := rfl

/-- `memcpy` of `n` bytes, each read and written by an action of its own. -/
def memcpy (dst : Block) (src : Images × UserData → Memory) (n : Nat) :
    List (Action Images UserData) :=
  (List.range n).map fun k m => dst.put m (Function.update (dst.get m) k (src m k))

/-- `frame_width * frame_height * 3` in `uint32_t`, stored in an `int` and passed as `size_t`. -/
def frameSize (frameWidth frameHeight : BitVec 32) : Nat := (frameWidth * frameHeight * 3).toNat

/-- `image_width*image_height*3` in `int`, passed as `size_t`. -/
def imageSize (imageWidth imageHeight : BitVec 32) : Nat := (imageWidth * imageHeight * 3).toNat

/-- The locked section of `video_buffer_callback`. -/
def copyFrame (buffer : Memory) (size : Nat) : List (Action Images UserData) :=
  memcpy image0Data (fun _ => buffer) size ++
    memcpy image1Data (fun _ k => buffer (size + k)) size

/-- The locked section of `get_images`. -/
def copyImages (size : Nat) : List (Action Images UserData) :=
  memcpy imgL image0Data.get size ++ memcpy imgR image1Data.get size

inductive Call
  | videoBufferCallback (buffer : Memory)
  | getImages

/-- What a call does under the mutex.  `initialize_cameras` has set the frame's width and height in
the user data to those of an image. -/
def Call.body (imageWidth imageHeight : BitVec 32) : Call → List (Action Images UserData)
  | .videoBufferCallback buffer => copyFrame buffer (frameSize imageWidth imageHeight)
  | .getImages => copyImages (imageSize imageWidth imageHeight)

/-- The buffer a call delivers. -/
def Call.buffer : Call → Option Memory
  | .videoBufferCallback buffer => some buffer
  | .getImages => none

variable {ι : Type}

/-- The buffer of the last of the calls `done` that delivered one. -/
def lastDelivered (calls : ι → Call) (done : List ι) : Option Memory :=
  (done.filterMap fun i => (calls i).buffer).getLast?

/-- The two images of the last delivered buffer, or those the memory had at first. -/
def latestPair (size : Nat) (userdata : UserData) : Option Memory → UserData
  | none => userdata
  | some buffer => ⟨buffer, fun k => buffer (size + k)⟩

/-! ## The copies -/

/-- The first `n` bytes of `src` over those of `dst`. -/
def overwrite (dst src : Memory) (n : Nat) : Memory := fun k => if k < n then src k else dst k

theorem overwrite_zero (dst src : Memory) : overwrite dst src 0 = dst := by
  funext k
  simp [overwrite]

theorem update_overwrite (dst src : Memory) (n : Nat) :
    Function.update (overwrite dst src n) n (src n) = overwrite dst src (n + 1) := by
  funext k
  unfold overwrite
  by_cases hk : k = n
  · simp [hk]
  · rw [Function.update_of_ne hk]
    have hlt : k < n ↔ k < n + 1 := by omega
    simp only [hlt]

/-- A copy from memory it does not write to. -/
theorem performAll_memcpy (dst : Block) {src : Images × UserData → Memory}
    (hsrc : ∀ m v, src (dst.put m v) = src m) (n : Nat) (m : Images × UserData) :
    performAll (memcpy dst src n) m = dst.put m (overwrite (dst.get m) (src m) n) := by
  unfold memcpy
  induction n with
  | zero => rw [overwrite_zero, dst.put_get, List.range_zero, List.map_nil, performAll_nil]
  | succ n ih =>
    rw [List.range_succ, List.map_append, performAll_append, ih]
    simp only [List.map_cons, List.map_nil, performAll_cons, performAll_nil]
    rw [hsrc, dst.get_put, dst.put_put, update_overwrite]

theorem performAll_copyFrame (buffer : Memory) (size : Nat) (m : Images × UserData) :
    (performAll (copyFrame buffer size) m).2 =
      ⟨overwrite m.2.image0Data buffer size,
        overwrite m.2.image1Data (fun k => buffer (size + k)) size⟩ := by
  unfold copyFrame
  rw [performAll_append, performAll_memcpy image0Data fun _ _ => rfl,
    performAll_memcpy image1Data fun _ _ => rfl]
  rfl

theorem performAll_copyImages (size : Nat) (m : Images × UserData) :
    performAll (copyImages size) m =
      (⟨overwrite m.1.imgL m.2.image0Data size, overwrite m.1.imgR m.2.image1Data size⟩, m.2) := by
  unfold copyImages
  rw [performAll_append, performAll_memcpy imgL fun _ _ => rfl,
    performAll_memcpy imgR fun _ _ => rfl]
  rfl

/-! ## The memory between sections -/

variable {imageWidth imageHeight : BitVec 32}

/-- `get_images` copies as much as the callback does. -/
theorem performAll_getImages (imageWidth imageHeight : BitVec 32) (m : Images × UserData) :
    performAll (Call.getImages.body imageWidth imageHeight) m =
      (⟨overwrite m.1.imgL m.2.image0Data (frameSize imageWidth imageHeight),
        overwrite m.1.imgR m.2.image1Data (frameSize imageWidth imageHeight)⟩, m.2) :=
  performAll_copyImages _ m

theorem lastDelivered_concat (calls : ι → Call) (done : List ι) (i : ι) :
    lastDelivered calls (done ++ [i]) = (calls i).buffer.or (lastDelivered calls done) := by
  unfold lastDelivered
  rw [List.filterMap_append, List.getLast?_append]
  cases hi : (calls i).buffer with
  | none => simp [hi]
  | some buffer => simp [hi]

/-- What a section leaves in the memory, as far as an image reaches: the halves of the buffer if it
delivers one, and otherwise what was there. -/
theorem performAll_body (call : Call) (m : Images × UserData) :
    let size := frameSize imageWidth imageHeight
    let m' := (performAll (call.body imageWidth imageHeight) m).2
    let pair := latestPair size m.2 call.buffer
    ∀ k < size, m'.image0Data k = pair.image0Data k ∧ m'.image1Data k = pair.image1Data k := by
  intro size m' pair k hk
  cases call with
  | videoBufferCallback buffer =>
    have hm' : m' = _ := performAll_copyFrame buffer size m
    rw [hm']
    exact ⟨if_pos hk, if_pos hk⟩
  | getImages =>
    have hm' : m' = m.2 := by
      simp only [m', performAll_getImages]
    rw [hm']
    exact ⟨rfl, rfl⟩

/-- Between the sections the memory holds, as far as an image reaches, the two halves of the buffer
delivered last. -/
theorem serial_calls (imageWidth imageHeight : BitVec 32) (calls : ι → Call) (images : ι → Images)
    (userdata : UserData) (done : List ι) :
    let size := frameSize imageWidth imageHeight
    let m := serial (fun i => (calls i).body imageWidth imageHeight) images userdata done
    let pair := latestPair size userdata (lastDelivered calls done)
    ∀ k < size, m.image0Data k = pair.image0Data k ∧ m.image1Data k = pair.image1Data k := by
  intro size m pair
  -- on the sections released so far, the last one first
  induction done using List.reverseRecOn with
  | nil => exact fun _ _ => ⟨rfl, rfl⟩
  | append_singleton done i ih =>
    intro k hk
    simp only [m, pair]
    rw [serial_concat, lastDelivered_concat]
    have hlast := performAll_body (calls i)
      (images i, serial (fun i => (calls i).body imageWidth imageHeight) images userdata done) k hk
    cases hi : (calls i).buffer with
    | none =>
      rw [hi] at hlast
      rw [Option.none_or]
      exact ⟨hlast.1.trans (ih k hk).1, hlast.2.trans (ih k hk).2⟩
    | some buffer =>
      rw [hi] at hlast
      rw [Option.some_or]
      exact hlast

/-! ## The images a call returns with -/

/-- Where byte `k` of pixel `(x, y)` is in an image of `width` pixels a row. -/
def pixelByte (width x y k : Nat) : Nat := (y * width + x) * 3 + k

theorem pixelByte_lt {width height x y k : Nat} (hx : x < width) (hy : y < height) (hk : k < 3) :
    pixelByte width x y k < width * height * 3 := by
  have hrow : (y + 1) * width ≤ height * width := Nat.mul_le_mul_right width hy
  have hsplit : (y + 1) * width = y * width + width := Nat.succ_mul y width
  have hcomm : width * height = height * width := Nat.mul_comm width height
  unfold pixelByte
  omega

/-- The lower image starts where the upper one ends. -/
theorem size_add_pixelByte (width height x y k : Nat) :
    width * height * 3 + pixelByte width x y k = pixelByte width x (height + y) k := by
  unfold pixelByte
  ring

/-- The frame size as a product of integers, when it fits an `int`. -/
theorem frameSize_eq (hnonneg : 0 ≤ imageWidth.toInt * imageHeight.toInt * 3)
    (hfits : imageWidth.toInt * imageHeight.toInt * 3 < 2 ^ 31) :
    frameSize imageWidth imageHeight = (imageWidth.toInt * imageHeight.toInt * 3).toNat := by
  have hmul : (imageWidth * imageHeight * 3).toInt = imageWidth.toInt * imageHeight.toInt * 3 := by
    have hthree : (3 : BitVec 32).toInt = 3 := by decide
    rw [BitVec.toInt_mul, BitVec.toInt_mul, hthree, Int.bmod_mul_bmod]
    apply Int.bmod_eq_of_le_mul_two <;> omega
  unfold frameSize
  rw [← hmul] at hnonneg ⊢
  have hcond := BitVec.toInt_eq_toNat_cond (imageWidth * imageHeight * 3)
  omega

/-- Whatever the interleaving, `get_images` returns with the two halves of the buffer whose callback
was the last to release the mutex before `get_images` took it, and with what the memory held at
first if there was none. -/
theorem getImages_whole [DecidableEq ι] (imageWidth imageHeight : BitVec 32)
    (hnonneg : 0 ≤ imageWidth.toInt * imageHeight.toInt * 3)
    (hfits : imageWidth.toInt * imageHeight.toInt * 3 < 2 ^ 31)
    (calls : ι → Call) (images : ι → Images) (userdata : UserData)
    (pre post : List (Step (Mutex ι Images UserData) (LockEvent ι)))
    (take : Step (Mutex ι Images UserData) (LockEvent ι)) (s' : Mutex ι Images UserData)
    (hrun : Run (MutexStep fun i => (calls i).body imageWidth imageHeight)
      (Mutex.initial userdata images) (pre ++ take :: post) s')
    (i : ι) (hcall : calls i = .getImages) (htake : take.label = .lock i) (result : Images)
    (hdone : s'.phase i = .left result) :
    let width := imageWidth.toInt.toNat
    let height := imageHeight.toInt.toNat
    let size := (imageWidth.toInt * imageHeight.toInt * 3).toNat
    let delivered := lastDelivered calls (releases pre)
    let pair := latestPair size userdata delivered
    (∀ k < size, result.imgL k = pair.image0Data k ∧ result.imgR k = pair.image1Data k) ∧
    ∀ buffer ∈ delivered, ∀ x < width, ∀ y < height, ∀ k < 3,
      result.imgL (pixelByte width x y k) = buffer (pixelByte width x y k) ∧
      result.imgR (pixelByte width x y k) = buffer (pixelByte width x (height + y) k) := by
  intro width height size delivered pair
  have hsize : frameSize imageWidth imageHeight = size := frameSize_eq hnonneg hfits
  have hresult := hrun.left_serial htake hdone
  rw [hcall, performAll_getImages, hsize] at hresult
  have hpair := serial_calls imageWidth imageHeight calls images userdata (releases pre)
  have hbytes : ∀ k < size, result.imgL k = pair.image0Data k ∧
      result.imgR k = pair.image1Data k := by
    intro k hk
    have hk' := hpair k (hsize ▸ hk)
    rw [hsize] at hk'
    rw [hresult]
    exact ⟨(if_pos hk).trans hk'.1, (if_pos hk).trans hk'.2⟩
  refine ⟨hbytes, ?_⟩
  intro buffer hbuffer x hx y hy k hk
  have hproduct : size = width * height * 3 := by
    have hwidth : (width : Int) = imageWidth.toInt := by omega
    have hheight : (height : Int) = imageHeight.toInt := by omega
    rw [← Int.natCast_inj, Int.natCast_mul, Int.natCast_mul, hwidth, hheight]
    exact Int.toNat_of_nonneg hnonneg
  have hlt : pixelByte width x y k < size := by
    rw [hproduct]
    exact pixelByte_lt hx hy hk
  have hbytes := hbytes _ hlt
  have hpair : pair = ⟨buffer, fun k => buffer (size + k)⟩ := by
    simp only [pair]
    rw [Option.mem_def.mp hbuffer]
    rfl
  rw [hpair] at hbytes
  rw [← size_add_pixelByte, ← hproduct]
  exact hbytes

/-- A one-pixel pair, delivered and then taken. -/
theorem getImages_whole_delivered :
    let buffer : Memory := fun k => BitVec.ofNat 8 k
    ∃ result : Images, ∀ k < 3, result.imgL k = buffer k ∧ result.imgR k = buffer (3 + k) := by
  intro buffer
  let calls : Bool → Call := fun i => if i then .getImages else .videoBufferCallback buffer
  let black : Memory := fun _ => 0
  let images : Bool → Images := fun _ => ⟨black, black⟩
  let body := fun i => (calls i).body 1 1
  have hinit : (Mutex.initial (⟨black, black⟩ : UserData) images).holder = none := rfl
  -- the callback runs first, then `get_images`
  obtain ⟨s₁, tr₁, s, hfirst, hreleases, hfree, -, hphase⟩ :=
    run_section body false hinit rfl
  have hwaiting : s.phase true = .waiting (images true) := by
    rw [hphase]
    rfl
  obtain ⟨s₂, tr₂, s', hsecond, -, -, -, hphase'⟩ := run_section body true hfree hwaiting
  have hleft := congrFun hphase' true
  rw [setPhase_self] at hleft
  have hwhole := (getImages_whole 1 1 (by decide) (by decide) calls images ⟨black, black⟩ _ _ _ s'
    (run_append.mpr ⟨s, hfirst, hsecond⟩) true rfl rfl _ hleft).1
  rw [hreleases] at hwhole
  exact ⟨_, hwhole⟩

end SimuSound.Camera
