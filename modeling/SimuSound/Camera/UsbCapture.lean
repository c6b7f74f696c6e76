import SimuSound.Camera.FrameCopy

/-!
# UsbCapture — the buffers of the USB cameras

The capture loop retrieves a frame from each camera into its buffer under the mutex, and
`get_images` copies three bytes for each pixel out of both buffers under the mutex.  The constructor
makes the buffers with one byte for each pixel, and what `retrieve` returns is not looked at.
-/

namespace SimuSound.Camera

open Reasoning

/-- A `cv::Mat`, with the iteration of the capture loop whose grab its pixels are of. -/
structure Mat where
  data : List Byte
  iteration : Option Nat

/-- What `cap.retrieve` leaves in its argument: a frame of the current grab, or an empty image. -/
def Mat.retrieved (iteration : Nat) : Option (List Byte) → Mat
  | some frame => ⟨frame, some iteration⟩
  | none => ⟨[], none⟩

/-- `cv::Mat(image_height, image_width, CV_8UC1)`; its bytes are not initialised. -/
def Mat.Made (imageWidth imageHeight : Nat) (m : Mat) : Prop :=
  m.data.length = imageHeight * imageWidth * 1 ∧ m.iteration = none

/-- `memcpy(img.data, m.data, n)`; nothing is known of a copy that reads past the end. -/
def Mat.Copied (m : Mat) (n : Nat) (img : List Byte) : Prop :=
  n ≤ m.data.length → img = m.data.take n

structure StereoUsb where
  bufImgL : Mat
  bufImgR : Mat
  /-- The iteration the capture loop is in. -/
  iteration : Nat
  /-- The loop has grabbed and not yet retrieved. -/
  grabbed : Bool

/-- What the constructor leaves. -/
def StereoUsb.Constructed (imageWidth imageHeight : Nat) (s : StereoUsb) : Prop :=
  s.bufImgL.Made imageWidth imageHeight ∧ s.bufImgR.Made imageWidth imageHeight ∧
    s.grabbed = false

/-- The grabs of an iteration, its locked section with what the two cameras deliver, and the locked
section of `get_images` with the images it fills. -/
inductive UsbEvent
  | grab
  | retrieve (l r : Option (List Byte))
  | getImages (imgL imgR : List Byte)

/-- A frame has three channels. -/
def Delivers (imageWidth imageHeight : Nat) (frame : Option (List Byte)) : Prop :=
  ∀ bytes ∈ frame, bytes.length = imageWidth * imageHeight * 3

inductive UsbStep (imageWidth imageHeight : Nat) : StereoUsb → UsbEvent → StereoUsb → Prop
  | grab (s : StereoUsb) (h : s.grabbed = false) :
      UsbStep imageWidth imageHeight s .grab
        { s with iteration := s.iteration + 1, grabbed := true }
  | retrieve (s : StereoUsb) (l r : Option (List Byte)) (h : s.grabbed = true)
      (hl : Delivers imageWidth imageHeight l) (hr : Delivers imageWidth imageHeight r) :
      UsbStep imageWidth imageHeight s (.retrieve l r)
        { s with bufImgL := .retrieved s.iteration l, bufImgR := .retrieved s.iteration r
                 grabbed := false }
  | getImages (s : StereoUsb) (imgL imgR : List Byte)
      (hl : s.bufImgL.Copied (imageWidth * imageHeight * 3) imgL)
      (hr : s.bufImgR.Copied (imageWidth * imageHeight * 3) imgR) :
      UsbStep imageWidth imageHeight s (.getImages imgL imgR) s

/-- Both buffers hold the bytes that `get_images` copies, of the same iteration. -/
def StereoUsb.FitToCopy (imageWidth imageHeight : Nat) (s : StereoUsb) : Prop :=
  imageWidth * imageHeight * 3 ≤ s.bufImgL.data.length ∧
  imageWidth * imageHeight * 3 ≤ s.bufImgR.data.length ∧
  ∃ n, s.bufImgL.iteration = some n ∧ s.bufImgR.iteration = some n

abbrev UsbTrace := List (Step StereoUsb UsbEvent)

/-- What the two cameras delivered in an iteration. -/
def UsbEvent.retrieval : UsbEvent → Option (Option (List Byte) × Option (List Byte))
  | .retrieve l r => some (l, r)
  | _ => none

def lastRetrieval (past : UsbTrace) : Option (Option (List Byte) × Option (List Byte)) :=
  (past.filterMap fun x => x.label.retrieval).getLast?

/-! ## What the buffers hold -/

variable {imageWidth imageHeight : Nat} {s s' : StereoUsb}

theorem lastRetrieval_concat (past : UsbTrace) (x : Step StereoUsb UsbEvent) :
    lastRetrieval (past ++ [x]) = x.label.retrieval.or (lastRetrieval past) := by
  unfold lastRetrieval
  rw [List.filterMap_append, List.getLast?_append]
  cases hx : x.label.retrieval with
  | none => simp [hx]
  | some frames => simp [hx]

/-- The buffers are those of the constructor until the first iteration, and then those of the last
one. -/
inductive StereoUsb.Holds (imageWidth imageHeight : Nat) (s : StereoUsb) :
    Option (Option (List Byte) × Option (List Byte)) → Prop
  | made (hl : s.bufImgL.Made imageWidth imageHeight) (hr : s.bufImgR.Made imageWidth imageHeight) :
      Holds imageWidth imageHeight s none
  | retrieved (l r : Option (List Byte)) (n : Nat) (hdl : Delivers imageWidth imageHeight l)
      (hdr : Delivers imageWidth imageHeight r) (hl : s.bufImgL = .retrieved n l)
      (hr : s.bufImgR = .retrieved n r) : Holds imageWidth imageHeight s (some (l, r))

/-- The buffers are all that counts. -/
theorem StereoUsb.Holds.congr {frames : Option (Option (List Byte) × Option (List Byte))}
    (h : s.Holds imageWidth imageHeight frames) (hl : s'.bufImgL = s.bufImgL)
    (hr : s'.bufImgR = s.bufImgR) : s'.Holds imageWidth imageHeight frames := by
  cases h with
  | made hml hmr => exact .made (hl ▸ hml) (hr ▸ hmr)
  | retrieved l r n hdl hdr hbl hbr =>
    exact .retrieved l r n hdl hdr (hl.trans hbl) (hr.trans hbr)

theorem holds_step {e : UsbEvent} {frames : Option (Option (List Byte) × Option (List Byte))}
    (h : s.Holds imageWidth imageHeight frames) (hstep : UsbStep imageWidth imageHeight s e s') :
    s'.Holds imageWidth imageHeight (e.retrieval.or frames) := by
  cases hstep with
  | grab => exact h.congr rfl rfl
  | retrieve l r _ hl hr => exact .retrieved l r s.iteration hl hr rfl rfl
  | getImages => exact h

theorem Run.holds {tr : UsbTrace} (hinit : s.Constructed imageWidth imageHeight)
    (hrun : Run (UsbStep imageWidth imageHeight) s tr s') :
    s'.Holds imageWidth imageHeight (lastRetrieval tr) := by
  apply hrun.history
  · exact .made hinit.1 hinit.2.1
  · intro past x hpast hstep
    rw [lastRetrieval_concat]
    exact holds_step hpast hstep

/-- A failed retrieve leaves no iteration behind. -/
theorem retrieved_iteration {frame : Option (List Byte)} {n m : Nat}
    (h : (Mat.retrieved n frame).iteration = some m) : ∃ bytes, frame = some bytes := by
  cases frame with
  | none => exact absurd h (by simp [Mat.retrieved])
  | some bytes => exact ⟨bytes, rfl⟩

theorem fitToCopy_iff {frames : Option (Option (List Byte) × Option (List Byte))}
    (h : s.Holds imageWidth imageHeight frames) :
    s.FitToCopy imageWidth imageHeight ↔ ∃ l r, frames = some (some l, some r) := by
  cases h with
  | made hl hr =>
    constructor
    · rintro ⟨-, -, n, hn, -⟩
      rw [hl.2] at hn
      exact absurd hn (by simp)
    · rintro ⟨l, r, h⟩
      exact absurd h (by simp)
  | retrieved l r n hdl hdr hl hr =>
    unfold StereoUsb.FitToCopy
    rw [hl, hr]
    constructor
    · rintro ⟨-, -, m, hml, hmr⟩
      obtain ⟨bytesL, rfl⟩ := retrieved_iteration hml
      obtain ⟨bytesR, rfl⟩ := retrieved_iteration hmr
      exact ⟨bytesL, bytesR, rfl⟩
    · rintro ⟨bytesL, bytesR, hframes⟩
      obtain ⟨rfl, rfl⟩ : l = some bytesL ∧ r = some bytesR := by simpa using hframes
      exact ⟨(hdl bytesL rfl).ge, (hdr bytesR rfl).ge, n, rfl, rfl⟩

/-! ## What `get_images` copies -/

/-- Between construction and the first iteration `get_images` reads past the end of both buffers. -/
theorem getImages_before_capture :
    ¬ ∀ (imageWidth imageHeight : Nat) (s s' : StereoUsb) (tr : UsbTrace),
      s.Constructed imageWidth imageHeight → Run (UsbStep imageWidth imageHeight) s tr s' →
      ∀ x ∈ tr, ∀ imgL imgR, x.label = .getImages imgL imgR →
        x.pre.FitToCopy imageWidth imageHeight := by
  intro h
  let made : Mat := ⟨[0], none⟩
  let s : StereoUsb := ⟨made, made, 0, false⟩
  have hpast : made.Copied (1 * 1 * 3) [0, 0, 0] := fun hlen => absurd hlen (by decide)
  have hrun : Run (UsbStep 1 1) s [⟨s, .getImages [0, 0, 0] [0, 0, 0], s⟩] s :=
    ⟨rfl, .getImages s _ _ hpast hpast, rfl⟩
  have hfit := h 1 1 s s _ ⟨⟨rfl, rfl⟩, ⟨rfl, rfl⟩, rfl⟩ hrun _ List.mem_cons_self _ _ rfl
  exact absurd hfit.1 (by decide)

/-- A copy of a whole frame is the frame. -/
theorem copied_eq {frame img : List Byte} {n : Nat}
    (hdelivers : Delivers imageWidth imageHeight (some frame))
    (h : (Mat.retrieved n (some frame)).Copied (imageWidth * imageHeight * 3) img) :
    img = frame := by
  have hlen : frame.length = imageWidth * imageHeight * 3 := hdelivers frame rfl
  rw [h hlen.ge, ← hlen]
  exact List.take_length

/-- The buffers are fit to copy exactly when an iteration has completed and both retrieves of the
last one delivered a frame; `get_images` then returns with these frames. -/
theorem getImages_fit_iff (imageWidth imageHeight : Nat) (s s' : StereoUsb)
    (hinit : s.Constructed imageWidth imageHeight) (past later : UsbTrace)
    (x : Step StereoUsb UsbEvent) (imgL imgR : List Byte) (hx : x.label = .getImages imgL imgR)
    (hrun : Run (UsbStep imageWidth imageHeight) s (past ++ x :: later) s') :
    (x.pre.FitToCopy imageWidth imageHeight ↔
      ∃ l r, lastRetrieval past = some (some l, some r)) ∧
    ∀ l r, lastRetrieval past = some (some l, some r) → imgL = l ∧ imgR = r := by
  obtain ⟨m, hpast, hpre, hstep, -⟩ := run_append.mp hrun
  have hholds := Run.holds hinit hpast
  rw [hx] at hstep
  rw [hpre]
  refine ⟨fitToCopy_iff hholds, ?_⟩
  intro l r hlast
  rw [hlast] at hholds
  cases hholds with
  | retrieved _ _ n hdl hdr hl hr =>
    cases hstep with
    | getImages _ _ hcl hcr =>
      rw [hl] at hcl
      rw [hr] at hcr
      exact ⟨copied_eq hdl hcl, copied_eq hdr hcr⟩

/-- One iteration with frames of one pixel, then `get_images`. -/
theorem getImages_fit_iff_captured :
    let s₀ : StereoUsb := ⟨⟨[0], none⟩, ⟨[0], none⟩, 0, false⟩
    let s₁ : StereoUsb := ⟨⟨[0], none⟩, ⟨[0], none⟩, 1, true⟩
    let s₂ : StereoUsb := ⟨⟨[1, 2, 3], some 1⟩, ⟨[4, 5, 6], some 1⟩, 1, false⟩
    let past : UsbTrace :=
      [⟨s₀, .grab, s₁⟩, ⟨s₁, .retrieve (some [1, 2, 3]) (some [4, 5, 6]), s₂⟩]
    (s₂.FitToCopy 1 1 ↔ ∃ l r, lastRetrieval past = some (some l, some r)) ∧
    ∀ l r, lastRetrieval past = some (some l, some r) → [1, 2, 3] = l ∧ [4, 5, 6] = r := by
  intro s₀ s₁ s₂ past
  have hdelivers : ∀ frame : List Byte, frame.length = 3 → Delivers 1 1 (some frame) := by
    intro frame hlen bytes hbytes
    rw [Option.mem_some.mp hbytes] at hlen
    exact hlen
  refine getImages_fit_iff 1 1 s₀ s₂ ⟨⟨rfl, rfl⟩, ⟨rfl, rfl⟩, rfl⟩ past []
    ⟨s₂, .getImages [1, 2, 3] [4, 5, 6], s₂⟩ _ _ rfl ?_
  exact ⟨rfl, .grab s₀ rfl, rfl, .retrieve s₁ _ _ rfl (hdelivers _ rfl) (hdelivers _ rfl), rfl,
    .getImages s₂ _ _ (fun _ => rfl) (fun _ => rfl), rfl⟩

end SimuSound.Camera
