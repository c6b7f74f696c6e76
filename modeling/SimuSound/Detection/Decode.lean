import SimuSound.Detection.Letterbox
import SimuSound.Reasoning.Conversion
import SimuSound.Reasoning.Failing

/-!
# Decode — the detections of the network

`evaluate_direct` takes the number of detections and the class of each from what the network has put
into its output tensors, and uses them as they are: the one as the bound of its loop over the
tensors, the other later as an index of `mobiledet_labels`.
-/

namespace SimuSound.Detection

open Reasoning

def mobiledetLabels : List String :=
  ["person", "bicycle", "car", "motorcycle", "airplane", "bus", "train", "truck", "boat",
    "traffic light", "stop sign", "bench", "dog", "umbrella", "chair", "couch", "bed",
    "dining table", "toilet", "laptop", "sink", "refrigerator", "door"]

structure DetectedObjects where
  top : BitVec 32
  left : BitVec 32
  bottom : BitVec 32
  right : BitVec 32
  confidence : Float32
  classId : BitVec 32

/-- `max_objects` is a dimension of a tensor.  `is_cpu` is 0, 1, or -1 before a successful setup. -/
structure MobileDetCoral where
  inputWidth : BitVec 32
  inputHeight : BitVec 32
  detectedObjects : List DetectedObjects
  maxObjects : ℕ
  isCpu : ℤ

/-- What is undefined in C++, as far as indices are concerned. -/
inductive Fault
  | noElement
  | noLabel
  | overflow

/-- What the machine makes of a `float` that no `int` can hold. -/
structure Target where
  unrepresentable : Float32 → BitVec 32

/-- `round`, stored in an `int`. -/
def Target.round (target : Target) (x : Float32) : BitVec 32 :=
  Binary32.toWord target.unrepresentable roundAway x

/-- A `float` passed as an `int`. -/
def Target.toInt (target : Target) (x : Float32) : BitVec 32 :=
  Binary32.toWord target.unrepresentable truncate x

/-! ## Setup -/

/-- What the interpreter says of its first input and its second output. -/
structure TensorShapes where
  inputIsUInt8 : Bool
  inputBatch : ℤ
  inputHeight : BitVec 32
  inputWidth : BitVec 32
  maxObjects : ℕ

/-- The end of both setups, after the tensors have been allocated. -/
def finishSetup (isCpu : ℤ) (shapes : TensorShapes) (obj : MobileDetCoral) : ℤ × MobileDetCoral :=
  if ¬ shapes.inputIsUInt8 ∨ shapes.inputBatch ≠ 1 then (1, obj)
  else (0,
    { inputWidth := shapes.inputWidth
      inputHeight := shapes.inputHeight
      detectedObjects := []
      maxObjects := shapes.maxObjects
      isCpu })

/-- There are no shapes when an earlier part of the setup fails. -/
def MobileDetCoral.setup (shapes : Option TensorShapes) (obj : MobileDetCoral) :
    ℤ × MobileDetCoral :=
  shapes.elim (1, obj) fun shapes => finishSetup 0 shapes obj

def MobileDetCoral.setupCpu (shapes : Option TensorShapes) (obj : MobileDetCoral) :
    ℤ × MobileDetCoral :=
  shapes.elim (1, obj) fun shapes => finishSetup 1 shapes obj

/-! ## Decoding -/

/-- The four output tensors, in the sizes they have for `maxObjects` detections. -/
structure Outputs (maxObjects : ℕ) where
  location : List Float32
  classes : List Float32
  scores : List Float32
  numDetections : List Float32
  location_length : location.length = 4 * maxObjects
  classes_length : classes.length = maxObjects
  scores_length : scores.length = maxObjects
  numDetections_length : numDetections.length = 1

/-- An element of a tensor; the index is an `int`. -/
def element (tensor : List Float32) (index : ℕ) : Except Fault Float32 :=
  if Fits 32 index then
    match tensor[index]? with
    | some x => pure x
    | none => throw .noElement
  else throw .overflow

/-- One turn of the loop of `evaluate_direct`. -/
def detectedObject (target : Target) (obj : MobileDetCoral) (outputs : Outputs obj.maxObjects)
    (i : ℕ) : Except Fault DetectedObjects := do
  let height := Float32.ofInt obj.inputHeight.toInt
  let width := Float32.ofInt obj.inputWidth.toInt
  let top := target.round (height * (← element outputs.location (i * 4 + 0)))
  let left := target.round (width * (← element outputs.location (i * 4 + 1)))
  let bottom := target.round (height * (← element outputs.location (i * 4 + 2)))
  let right := target.round (width * (← element outputs.location (i * 4 + 3)))
  let confidence ← element outputs.scores i
  let classId := target.round (← element outputs.classes i)
  return { top, left, bottom, right, confidence, classId }

/-- `invoke` is what `Invoke` leaves in the output tensors, unless it fails.  The image that is
copied into the input tensor is only asked whether it is continuous. -/
def MobileDetCoral.evaluateDirect (target : Target) (obj : MobileDetCoral) (isContinuous : Bool)
    (invoke : Option (Outputs obj.maxObjects)) : Except Fault (ℤ × MobileDetCoral) :=
  if ¬ isContinuous then pure (1, obj)
  else
    match invoke with
    | none => pure (1, obj)
    | some outputs => do
      let numDetections := target.round (← element outputs.numDetections 0)
      -- a negative number of detections is none
      let detectedObjects ←
        (List.range numDetections.toInt.toNat).mapM (detectedObject target obj outputs)
      return (0, { obj with detectedObjects })

/-! ## The two consumers -/

/-- `mobiledet_labels[classId]`; a negative index becomes a huge one. -/
def label (classId : BitVec 32) : Except Fault String :=
  match classId.toInt with
  | .ofNat index =>
    match mobiledetLabels[index]? with
    | some name => pure name
    | none => throw .noLabel
  | .negSucc _ => throw .noLabel

/-- What is sent to `std::cout`. -/
inductive Out
  | text (s : String)
  | int (n : ℤ)
  | float (x : Float32)
  | endl

def printObject (d : DetectedObjects) (i : ℕ) : Except Fault (List Out) := do
  let name ← label d.classId
  return [.text "num: ", .int i, .endl,
    .text "label name: ", .text name, .text ", id: ", .int d.classId.toInt, .endl,
    .text "confidence: ", .float d.confidence, .endl,
    .text "bbox (tldr): ", .int d.top.toInt, .text ", ", .int d.left.toInt, .text ", ",
    .int d.bottom.toInt, .text ", ", .int d.right.toInt, .endl]

def printDetectedObjects (objects : List DetectedObjects) : Except Fault (List Out) :=
  List.flatten <$> objects.zipIdx.mapM fun (d, i) => printObject d i

/-- `cv::Point` -/
structure Point where
  x : BitVec 32
  y : BitVec 32

/-- What is drawn into the copy of the background. -/
inductive Shape
  | rectangle (topLeft bottomRight : Point)
  | putText (name : String) (confidence : Float32) (org : Point)

def drawObject (target : Target) (distMult confThreshold : Float32) (d : DetectedObjects) :
    Except Fault (List Shape) :=
  if d.confidence < confThreshold then pure []
  else do
    let scaled (coordinate : BitVec 32) : BitVec 32 :=
      target.toInt (Float32.ofInt coordinate.toInt * distMult)
    let topLeft : Point := ⟨scaled d.left, scaled d.top⟩
    let bottomRight : Point := ⟨scaled d.right, scaled d.bottom⟩
    let name ← label d.classId
    return [.rectangle topLeft bottomRight, .putText name d.confidence topLeft]

def drawDetectedObjects (target : Target) (objects : List DetectedObjects)
    (distMult confThreshold : Float32) : Except Fault (List Shape) :=
  List.flatten <$> objects.mapM (drawObject target distMult confThreshold)

/-! ## What the outputs have to be -/

/-- The number that `round` rounds. -/
def Target.number (target : Target) (x : Float32) : ℚ :=
  Binary32.stored target.unrepresentable roundAway x

/-- As many detections as there is room for, none of them of a class without a label. -/
def SafeContents (target : Target) {maxObjects : ℕ} (outputs : Outputs maxObjects) : Prop :=
  ∀ n ∈ outputs.numDetections, ∀ i : ℕ, (i : ℚ) + 1 / 2 ≤ target.number n →
    i < maxObjects ∧ i * 4 + 3 < 2 ^ 31 ∧
      ∀ x ∈ outputs.classes[i]?, -(1 / 2) < target.number x ∧ target.number x < 45 / 2

/-- Both consumers find a label for every detection. -/
def Showable (target : Target) (objects : List DetectedObjects) : Prop :=
  (∃ out, printDetectedObjects objects = .ok out) ∧
    ∀ distMult confThreshold, ∃ shapes,
      drawDetectedObjects target objects distMult confThreshold = .ok shapes

/-- The outputs are decoded without reading anything else, into detections that the object has room
for and that can be shown. -/
def DecodesInRange (target : Target) (obj : MobileDetCoral) (outputs : Outputs obj.maxObjects) :
    Prop :=
  ∃ obj', obj.evaluateDirect target true (some outputs) = .ok (0, obj') ∧
    obj'.detectedObjects.length ≤ obj.maxObjects ∧ Showable target obj'.detectedObjects

def ValidLabel (classId : BitVec 32) : Prop := 0 ≤ classId.toInt ∧ classId.toInt < 23

instance (classId : BitVec 32) : Decidable (ValidLabel classId) :=
  inferInstanceAs (Decidable (_ ∧ _))

/-! ## Rounded numbers -/

section
variable (target : Target) (x : Float32)

theorem toInt_round : (target.round x).toInt = roundAway (target.number x) :=
  Binary32.toInt_toWord target.unrepresentable roundAway_intCast x

theorem lt_round_iff (i : ℕ) :
    i < (target.round x).toInt.toNat ↔ (i : ℚ) + 1 / 2 ≤ target.number x := by
  rw [toInt_round, Int.lt_toNat, lt_roundAway_iff (Int.natCast_nonneg i), Int.cast_natCast]

theorem validLabel_round_iff :
    ValidLabel (target.round x) ↔ -(1 / 2) < target.number x ∧ target.number x < 45 / 2 := by
  unfold ValidLabel
  have hlabels : roundAway (target.number x) < 23 ↔ target.number x < 45 / 2 := by
    rw [← not_le, le_roundAway_iff (by decide), not_le]
    norm_num
  rw [toInt_round, roundAway_nonneg_iff, hlabels]

end

theorem fits_index_iff {index : ℕ} : Fits 32 (index : ℤ) ↔ index < 2 ^ 31 := by
  rw [fits_iff (by decide)]
  omega

/-! ## Tensors and labels -/

theorem element_eq_ok {tensor : List Float32} {index : ℕ} {x : Float32} :
    element tensor index = .ok x ↔ index < 2 ^ 31 ∧ tensor[index]? = some x := by
  unfold element
  rw [← fits_index_iff]
  split
  · rename_i hfits
    rw [and_iff_right hfits]
    split
    · rename_i y hy
      rw [pure_eq_ok, hy, Option.some.injEq]
    · rename_i hnone
      rw [hnone]
      exact iff_of_false (fun h => nomatch h) (fun h => nomatch h)
  · rename_i hfits
    exact iff_of_false (fun h => nomatch h) (fun h => hfits h.1)

theorem exists_element_ok {tensor : List Float32} {index : ℕ} :
    (∃ x, element tensor index = .ok x) ↔ index < 2 ^ 31 ∧ index < tensor.length := by
  simp only [element_eq_ok, exists_and_left]
  apply and_congr_right'
  constructor
  · rintro ⟨x, hx⟩
    exact (List.getElem?_eq_some_iff.mp hx).1
  · exact fun hlt => ⟨tensor[index], List.getElem?_eq_getElem hlt⟩

theorem exists_label_ok {classId : BitVec 32} :
    (∃ name, label classId = .ok name) ↔ ValidLabel classId := by
  have hlabels : mobiledetLabels.length = 23 := rfl
  unfold label ValidLabel
  cases classId.toInt with
  | ofNat index =>
    rw [Int.ofNat_eq_natCast]
    show (∃ name, (match mobiledetLabels[index]? with
      | some name => pure name
      | none => throw .noLabel : Except Fault String) = .ok name) ↔ _
    split
    · rename_i name hname
      obtain ⟨hlt, -⟩ := List.getElem?_eq_some_iff.mp hname
      apply iff_of_true ⟨name, rfl⟩
      omega
    · rename_i hnone
      have hge := List.getElem?_eq_none_iff.mp hnone
      apply iff_of_false
      · rintro ⟨name, h⟩
        cases h
      · omega
  | negSucc index =>
    apply iff_of_false
    · rintro ⟨name, h⟩
      cases h
    · omega

/-! ## Decoding -/

section
variable {target : Target} {obj : MobileDetCoral} {outputs : Outputs obj.maxObjects}

theorem exists_detectedObject_ok {i : ℕ} :
    (∃ d, detectedObject target obj outputs i = .ok d) ↔
      i < obj.maxObjects ∧ i * 4 + 3 < 2 ^ 31 := by
  have hlocation := outputs.location_length
  have hscores := outputs.scores_length
  have hclasses := outputs.classes_length
  constructor
  · rintro ⟨d, h⟩
    obtain ⟨top, -, h⟩ := bind_eq_ok.mp h
    obtain ⟨left, -, h⟩ := bind_eq_ok.mp h
    obtain ⟨bottom, -, h⟩ := bind_eq_ok.mp h
    obtain ⟨right, hright, h⟩ := bind_eq_ok.mp h
    -- the last read of the box has the largest index
    have hlast := exists_element_ok.mp ⟨right, hright⟩
    omega
  · rintro ⟨hi, hlast⟩
    obtain ⟨top, htop⟩ := exists_element_ok.mpr
      (show i * 4 + 0 < 2 ^ 31 ∧ i * 4 + 0 < outputs.location.length by omega)
    obtain ⟨left, hleft⟩ := exists_element_ok.mpr
      (show i * 4 + 1 < 2 ^ 31 ∧ i * 4 + 1 < outputs.location.length by omega)
    obtain ⟨bottom, hbottom⟩ := exists_element_ok.mpr
      (show i * 4 + 2 < 2 ^ 31 ∧ i * 4 + 2 < outputs.location.length by omega)
    obtain ⟨right, hright⟩ := exists_element_ok.mpr
      (show i * 4 + 3 < 2 ^ 31 ∧ i * 4 + 3 < outputs.location.length by omega)
    obtain ⟨confidence, hconfidence⟩ := exists_element_ok.mpr
      (show i < 2 ^ 31 ∧ i < outputs.scores.length by omega)
    obtain ⟨class', hclass⟩ := exists_element_ok.mpr
      (show i < 2 ^ 31 ∧ i < outputs.classes.length by omega)
    unfold detectedObject
    rw [htop, hleft, hbottom, hright, hconfidence, hclass]
    exact ⟨_, rfl⟩

theorem classId_of_detectedObject {i : ℕ} {d : DetectedObjects}
    (h : detectedObject target obj outputs i = .ok d) :
    ∃ x, outputs.classes[i]? = some x ∧ d.classId = target.round x := by
  obtain ⟨top, -, h⟩ := bind_eq_ok.mp h
  obtain ⟨left, -, h⟩ := bind_eq_ok.mp h
  obtain ⟨bottom, -, h⟩ := bind_eq_ok.mp h
  obtain ⟨right, -, h⟩ := bind_eq_ok.mp h
  obtain ⟨confidence, -, h⟩ := bind_eq_ok.mp h
  obtain ⟨x, hx, h⟩ := bind_eq_ok.mp h
  obtain rfl := pure_eq_ok.mp h
  exact ⟨x, (element_eq_ok.mp hx).2, rfl⟩

/-- The spec of `evaluate_direct` after a successful `Invoke`. -/
theorem evaluateDirect_eq_ok {n : Float32} (hn : outputs.numDetections = [n]) {ret : ℤ}
    {obj' : MobileDetCoral} :
    obj.evaluateDirect target true (some outputs) = .ok (ret, obj') ↔
      ∃ objects, (List.range (target.round n).toInt.toNat).mapM
          (detectedObject target obj outputs) = .ok objects ∧
        ret = 0 ∧ obj' = { obj with detectedObjects := objects } := by
  have hcount : element outputs.numDetections 0 = .ok n := by
    rw [element_eq_ok, hn]
    exact ⟨by decide, rfl⟩
  unfold MobileDetCoral.evaluateDirect
  rw [if_neg (by decide)]
  constructor
  · intro h
    obtain ⟨n', hn', h⟩ := bind_eq_ok.mp h
    obtain rfl := Except.ok.inj (hcount.symm.trans hn')
    obtain ⟨objects, hobjects, h⟩ := bind_eq_ok.mp h
    obtain ⟨rfl, rfl⟩ := Prod.mk.inj (pure_eq_ok.mp h)
    exact ⟨objects, hobjects, rfl, rfl⟩
  · rintro ⟨objects, hobjects, rfl, rfl⟩
    exact bind_eq_ok.mpr ⟨n, hcount, bind_eq_ok.mpr ⟨objects, hobjects, rfl⟩⟩

theorem printObject_ok {d : DetectedObjects} {i : ℕ} :
    (∃ out, printObject d i = .ok out) ↔ ValidLabel d.classId := by
  rw [← exists_label_ok]
  exact exists_map_ok

/-- A detection that is drawn has a label. -/
theorem drawObject_ok {d : DetectedObjects} (hvalid : ValidLabel d.classId)
    (distMult confThreshold : Float32) :
    ∃ shapes, drawObject target distMult confThreshold d = .ok shapes := by
  obtain ⟨name, hname⟩ := exists_label_ok.mpr hvalid
  unfold drawObject
  rw [hname]
  split
  · exact ⟨[], rfl⟩
  · exact ⟨_, rfl⟩

theorem showable_iff {objects : List DetectedObjects} :
    Showable target objects ↔ ∀ d ∈ objects, ValidLabel d.classId := by
  constructor
  · rintro ⟨hprint, -⟩ d hd
    have hall := exists_mapM_ok.mp (exists_map_ok.mp hprint)
    obtain ⟨i, hi, rfl⟩ := List.getElem_of_mem hd
    exact printObject_ok.mp (hall (objects[i], i) (List.mk_mem_zipIdx_iff_getElem?.mpr (by simp)))
  · intro hvalid
    refine ⟨exists_map_ok.mpr (exists_mapM_ok.mpr ?_), fun distMult confThreshold => ?_⟩
    · intro p hp
      exact printObject_ok.mpr (hvalid p.1 (List.fst_mem_of_mem_zipIdx hp))
    · apply exists_map_ok.mpr
      apply exists_mapM_ok.mpr
      exact fun d hd => drawObject_ok (hvalid d hd) distMult confThreshold

/-- The turns of the loop are in range. -/
def TurnsInRange (target : Target) (outputs : Outputs obj.maxObjects) (n : Float32) : Prop :=
  ∀ i < (target.round n).toInt.toNat, i < obj.maxObjects ∧ i * 4 + 3 < 2 ^ 31 ∧
    ∀ x ∈ outputs.classes[i]?, ValidLabel (target.round x)

theorem safeContents_iff {n : Float32} (hn : outputs.numDetections = [n]) :
    SafeContents target outputs ↔ TurnsInRange target outputs n := by
  unfold SafeContents TurnsInRange
  rw [hn]
  simp only [List.mem_singleton, forall_eq, lt_round_iff, validLabel_round_iff]

/-- All that matters is where the loop ends and which classes it meets. -/
theorem decodesInRange_iff {n : Float32} (hn : outputs.numDetections = [n]) :
    DecodesInRange target obj outputs ↔ TurnsInRange target outputs n := by
  constructor
  · rintro ⟨obj', heval, -, hshow⟩ i hi
    obtain ⟨objects, hobjects, -, rfl⟩ := (evaluateDirect_eq_ok hn).mp heval
    have hmem : i ∈ List.range (target.round n).toInt.toNat := List.mem_range.mpr hi
    obtain ⟨d, hd⟩ := exists_mapM_ok.mp ⟨objects, hobjects⟩ i hmem
    obtain ⟨hlt, hlast⟩ := exists_detectedObject_ok.mp ⟨d, hd⟩
    refine ⟨hlt, hlast, fun x hx => ?_⟩
    obtain ⟨x', hx', hclass⟩ := classId_of_detectedObject hd
    obtain rfl := Option.some.inj (hx'.symm.trans hx)
    rw [← hclass]
    exact (forall_mem_of_mapM_ok hobjects).mp (showable_iff.mp hshow) i hmem d hd
  · intro h
    have hdecoded : ∀ i ∈ List.range (target.round n).toInt.toNat,
        ∃ d, detectedObject target obj outputs i = .ok d := by
      intro i hi
      obtain ⟨hlt, hlast, -⟩ := h i (List.mem_range.mp hi)
      exact exists_detectedObject_ok.mpr ⟨hlt, hlast⟩
    obtain ⟨objects, hobjects⟩ := exists_mapM_ok.mpr hdecoded
    refine ⟨_, (evaluateDirect_eq_ok hn).mpr ⟨objects, hobjects, rfl, rfl⟩, ?_, ?_⟩
    · show objects.length ≤ obj.maxObjects
      rw [length_of_mapM_ok hobjects, List.length_range]
      -- otherwise the turn after the last detection there is room for would be in range
      by_contra hmore
      exact absurd (h obj.maxObjects (by omega)).1 (Nat.lt_irrefl _)
    · apply showable_iff.mpr
      show ∀ d ∈ objects, ValidLabel d.classId
      rw [forall_mem_of_mapM_ok hobjects]
      intro i hi d hd
      obtain ⟨x, hx, hclass⟩ := classId_of_detectedObject hd
      rw [hclass]
      exact (h i (List.mem_range.mp hi)).2.2 x hx

end

/-! ## Every output of the network -/

/-- An object with room for one detection. -/
def oneObject : MobileDetCoral := ⟨320, 320, [], 1, 1⟩

/-- One detection of a class, anywhere. -/
def oneDetection (classId : Float32) : Outputs oneObject.maxObjects where
  location := [0, 0, 1, 1]
  classes := [classId]
  scores := [1]
  numDetections := [1]
  location_length := rfl
  classes_length := rfl
  scores_length := rfl
  numDetections_length := rfl

/-- The class after the last label is printed and drawn all the same. -/
theorem class_without_label :
    ¬ ∀ (target : Target) (obj : MobileDetCoral) (outputs : Outputs obj.maxObjects),
      DecodesInRange target obj outputs := by
  intro h
  have hindices := (decodesInRange_iff rfl).mp (h ⟨fun _ => 0⟩ oneObject (oneDetection 23))
  have hlabel := (hindices 0 (by decide +kernel)).2.2 23 rfl
  exact absurd hlabel (by decide +kernel)

/-- The outputs are decoded and shown in range exactly when the network has found no more than there
is room for, and only what there are labels for. -/
theorem decodesInRange_iff_safeContents (target : Target) (obj : MobileDetCoral)
    (outputs : Outputs obj.maxObjects) :
    DecodesInRange target obj outputs ↔ SafeContents target outputs := by
  obtain ⟨n, hn⟩ := List.length_eq_one_iff.mp outputs.numDetections_length
  exact (decodesInRange_iff hn).trans (safeContents_iff hn).symm

example : DecodesInRange ⟨fun _ => 0⟩ oneObject (oneDetection 22) := by
  rw [decodesInRange_iff rfl]
  unfold TurnsInRange
  decide +kernel

/-! ## Any order of calls -/

/-- What can be shown of the object at any time. -/
structure MobileDetCoral.InRange (target : Target) (obj : MobileDetCoral) : Prop where
  length_le : obj.detectedObjects.length ≤ obj.maxObjects
  showable : Showable target obj.detectedObjects

section
variable {target : Target} {obj obj' : MobileDetCoral}

theorem inRange_of_empty (hempty : obj.detectedObjects = []) : obj.InRange target where
  length_le := by
    rw [hempty]
    exact Nat.zero_le _
  showable := by
    rw [hempty, showable_iff]
    exact List.forall_mem_nil _

/-- The object is left as it was, or without detections. -/
theorem finishSetup_inRange (isCpu : ℤ) (shapes : TensorShapes) (h : obj.InRange target) :
    (finishSetup isCpu shapes obj).2.InRange target := by
  unfold finishSetup
  split
  · exact h
  · exact inRange_of_empty rfl

theorem elim_finishSetup_inRange (isCpu : ℤ) (shapes : Option TensorShapes)
    (h : obj.InRange target) :
    (shapes.elim (1, obj) fun shapes => finishSetup isCpu shapes obj).2.InRange target := by
  cases shapes with
  | none => exact h
  | some shapes => exact finishSetup_inRange isCpu shapes h

variable {isContinuous : Bool} {invoke : Option (Outputs obj.maxObjects)}

/-- A call that does not get to its outputs leaves the detections of the last one. -/
theorem evaluateDirect_inRange (h : obj.InRange target)
    (hsafe : ∀ outputs ∈ invoke, SafeContents target outputs) :
    ∃ ret obj', obj.evaluateDirect target isContinuous invoke = .ok (ret, obj') ∧
      obj'.InRange target := by
  by_cases hcontinuous : isContinuous = true
  · subst hcontinuous
    cases invoke with
    | none => exact ⟨1, obj, rfl, h⟩
    | some outputs =>
      obtain ⟨n, hn⟩ := List.length_eq_one_iff.mp outputs.numDetections_length
      have hturns := (safeContents_iff hn).mp (hsafe outputs rfl)
      obtain ⟨obj', heval, hlength, hshow⟩ := (decodesInRange_iff hn).mpr hturns
      obtain ⟨objects, -, -, rfl⟩ := (evaluateDirect_eq_ok hn).mp heval
      exact ⟨0, _, heval, hlength, hshow⟩
  · refine ⟨1, obj, ?_, h⟩
    exact if_pos hcontinuous

end

/-- The objects that any calls lead to, as long as the outputs decoded on the way are safe. -/
inductive Reached (target : Target) : MobileDetCoral → Prop
  | new {obj : MobileDetCoral} (hempty : obj.detectedObjects = []) : Reached target obj
  | setup {obj : MobileDetCoral} (shapes : Option TensorShapes) (h : Reached target obj) :
      Reached target (obj.setup shapes).2
  | setupCpu {obj : MobileDetCoral} (shapes : Option TensorShapes) (h : Reached target obj) :
      Reached target (obj.setupCpu shapes).2
  | evaluateDirect {obj obj' : MobileDetCoral} {ret : ℤ} (isContinuous : Bool)
      {invoke : Option (Outputs obj.maxObjects)} (h : Reached target obj)
      (hsafe : ∀ outputs ∈ invoke, SafeContents target outputs)
      (heval : obj.evaluateDirect target isContinuous invoke = .ok (ret, obj')) :
      Reached target obj'

end SimuSound.Detection
