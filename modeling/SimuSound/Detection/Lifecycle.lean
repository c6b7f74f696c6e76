import SimuSound.Detection.Decode
import SimuSound.Reasoning.Interaction
import SimuSound.Reasoning.Transition

/-!
# Lifecycle — the interpreter behind the detections

Both setups replace the model, build an interpreter from it, and only at the end take over the sizes
of its tensors.  A setup that fails on the way leaves parts that do not belong together: sizes of one
interpreter and the tensors of another, or an interpreter whose model has been freed.
-/

namespace SimuSound.Detection

open Reasoning

/-- The calls into the Edge TPU library and TensorFlow Lite that may fail. -/
inductive TfEvent
  | listDevices
  | buildFromFile
  | buildInterpreter
  | createDelegate
  | modifyGraphWithDelegate
  | allocateTensors
  deriving DecidableEq

/-- A failed `InterpreterBuilder` may leave the old interpreter or none. -/
inductive Built
  | ok
  | failed (kept : Bool)

/-- What the tensors are once they are allocated: the `shapes` that the setups look at, and the last
dimension of the input. -/
structure Tensors where
  shapes : TensorShapes
  channels : ℤ

@[reducible] def TfEvent.Resp : TfEvent → Type
  | .listDevices => ℕ
  | .buildFromFile => Bool
  | .buildInterpreter => Built
  | .createDelegate => Bool
  | .modifyGraphWithDelegate => Unit
  | .allocateTensors => Option Tensors

/-- An interpreter uses its model as long as it lives, and has memory for its tensors once they have
been allocated. -/
structure Interpreter where
  modelAlive : Bool
  tensors : Option Tensors

/-- The object with the model and the interpreter that it owns. -/
structure Detector where
  obj : MobileDetCoral
  model : Bool
  interpreter : Option Interpreter

abbrev Tf := StateT Detector (Prog TfEvent TfEvent.Resp)

def request (e : TfEvent) : Tf e.Resp := liftM (Prog.perform e : Prog TfEvent TfEvent.Resp e.Resp)

/-! ## Setup -/

/-- `model = BuildFromFile(...)`, which frees the model that was there. -/
def loadModel : Tf Bool := do
  let loaded ← request .buildFromFile
  modify fun d => { d with
    model := loaded
    interpreter := d.interpreter.map fun i => { i with modelAlive := false } }
  return loaded

/-- `InterpreterBuilder(*model, resolver)(&interpreter)` -/
def buildInterpreter : Tf Bool := do
  match ← request .buildInterpreter with
  | .ok =>
    modify fun d => { d with interpreter := some ⟨true, none⟩ }
    return true
  | .failed kept =>
    modify fun d => { d with interpreter := if kept then d.interpreter else none }
    return false

/-- The loop over `edgetpu_create_delegate`, `left` tries still to go. -/
def createDelegate : ℕ → Tf Bool
  | 0 => pure false
  | left + 1 => do
    if ← request .createDelegate then return true else createDelegate left

/-- The result of `ModifyGraphWithDelegate` is not looked at. -/
def applyDelegate : Tf Bool := do
  if ← createDelegate 4 then
    request .modifyGraphWithDelegate
    return true
  else return false

def allocateTensors : Tf (Option Tensors) := do
  let tensors ← request .allocateTensors
  modify fun d => { d with interpreter := d.interpreter.map fun i => { i with tensors } }
  return tensors

/-- What both setups do once there is a device, `delegate` apart. -/
def setUpModel (delegate : Tf Bool) (isCpu : ℤ) : Tf ℤ := do
  if !(← loadModel) then return 1
  if !(← buildInterpreter) then return 1
  if !(← delegate) then return 1
  match ← allocateTensors with
  | none => return 1
  | some tensors =>
    let d ← get
    let r := finishSetup isCpu tensors.shapes d.obj
    set { d with obj := r.2 }
    return r.1

def setup : Tf ℤ := do
  let numDevices ← request .listDevices
  if numDevices = 0 then return 1
  setUpModel applyDelegate 0

def setupCpu : Tf ℤ := setUpModel (pure true) 1

/-! ## The input of the network -/

/-- What `evaluate_direct` may run into before it looks at any output. -/
inductive InputFault
  | noInterpreter
  | modelFreed
  | noTensor
  | pastTensor

/-- The elements of the input tensor, a byte each. -/
def Tensors.inputBytes (tensors : Tensors) : ℤ :=
  tensors.shapes.inputBatch * tensors.shapes.inputHeight.toInt * tensors.shapes.inputWidth.toInt *
    tensors.channels

/-- The `memcpy` of an image into the input tensor, and the interpreter's use of its model.
`typed_input_tensor<uint8_t>` is NULL for a tensor of another type. -/
def Detector.copyInput (d : Detector) (imageBytes : ℤ) : Except InputFault Unit :=
  match d.interpreter with
  | none => throw .noInterpreter
  | some interpreter =>
    match interpreter.tensors with
    | none => throw .noTensor
    | some tensors =>
      if ¬ tensors.shapes.inputIsUInt8 then throw .noTensor
      else if tensors.inputBytes < imageBytes then throw .pastTensor
      else if ¬ interpreter.modelAlive then throw .modelFreed
      else pure ()

/-- The bytes of the image that `evaluate` makes, with three channels. -/
def Detector.imageBytes (d : Detector) : ℤ := d.obj.inputHeight.toInt * d.obj.inputWidth.toInt * 3

/-! ## Parts that belong together -/

/-- The interpreter can run, takes one image of the size in the object, and finds as many objects at
most as the object says. -/
def Detector.Sound (d : Detector) : Prop :=
  ∃ tensors, d.interpreter = some ⟨true, some tensors⟩ ∧
    tensors.shapes.inputIsUInt8 = true ∧ tensors.shapes.inputBatch = 1 ∧
    d.obj.inputHeight = tensors.shapes.inputHeight ∧
    d.obj.inputWidth = tensors.shapes.inputWidth ∧
    d.obj.maxObjects = tensors.shapes.maxObjects

section
variable {d : Detector}

/-- An interpreter does not survive its model. -/
theorem not_sound_of_freed {i : Option Interpreter}
    (h : d.interpreter = i.map fun i => { i with modelAlive := false }) : ¬ d.Sound := by
  rintro ⟨tensors, hsound, -⟩
  rw [hsound] at h
  cases i with
  | none => cases h
  | some i => cases h

theorem not_sound_of_none (h : d.interpreter = none) : ¬ d.Sound := by
  rintro ⟨tensors, hsound, -⟩
  rw [h] at hsound
  cases hsound

theorem not_sound_of_unallocated {alive : Bool} (h : d.interpreter = some ⟨alive, none⟩) :
    ¬ d.Sound := by
  rintro ⟨tensors, hsound, -⟩
  rw [h] at hsound
  cases hsound

/-- The object as the last part of the setup leaves it. -/
theorem sound_finishSetup_iff {isCpu : ℤ} {tensors : Tensors}
    (h : d.interpreter = some ⟨true, some tensors⟩) :
    ({ d with obj := (finishSetup isCpu tensors.shapes d.obj).2 } : Detector).Sound ↔
      (finishSetup isCpu tensors.shapes d.obj).1 = 0 := by
  unfold finishSetup
  split
  · next hbad =>
    apply iff_of_false
    · rintro ⟨tensors', hsound, htype, hbatch, -⟩
      obtain rfl : tensors' = tensors := by
        rw [h] at hsound
        cases hsound
        rfl
      rcases hbad with hbad | hbad
      · exact hbad htype
      · exact hbad hbatch
    · exact one_ne_zero
  · next hgood =>
    obtain ⟨htype, hbatch⟩ := not_or.mp hgood
    exact iff_of_true ⟨tensors, h, not_not.mp htype, not_not.mp hbatch, rfl, rfl, rfl⟩ rfl

/-! ## What a setup leaves -/

/-- A setup that returns 0 leaves parts that belong together, and one that returns 1 after it has
begun to load a model does not. -/
theorem ends_setUpModel {delegate : Tf Bool} (hdelegate : Prog.Leaves id delegate) (isCpu : ℤ)
    (d : Detector) :
    Prog.Ends (fun r : ℤ × Detector => r.2.Sound ↔ r.1 = 0) ((setUpModel delegate isCpu).run d) := by
  unfold setUpModel
  intro loaded
  cases loaded with
  | false => exact iff_of_false (not_sound_of_freed rfl) one_ne_zero
  | true =>
    intro built
    cases built with
    | failed kept =>
      cases kept with
      | true => exact iff_of_false (not_sound_of_freed rfl) one_ne_zero
      | false => exact iff_of_false (not_sound_of_none rfl) one_ne_zero
    | ok =>
      -- whatever the delegate does, the interpreter has no memory for its tensors yet
      let built : Detector := { d with model := true, interpreter := some ⟨true, none⟩ }
      refine (Prog.ends_bind _ (delegate.run built) _).mpr ((hdelegate built).mono ?_)
      rintro ⟨applied, d₁⟩ hd₁
      obtain rfl : d₁ = built := hd₁
      cases applied with
      | false => exact iff_of_false (not_sound_of_unallocated rfl) one_ne_zero
      | true =>
        intro tensors
        cases tensors with
        | none => exact iff_of_false (not_sound_of_unallocated rfl) one_ne_zero
        | some tensors => exact sound_finishSetup_iff rfl

theorem leaves_createDelegate (left : ℕ) : Prog.Leaves id (createDelegate left) := by
  induction left with
  | zero => exact Prog.leaves_pure _
  | succ left ih =>
    exact (Prog.leaves_lift _).bind fun created => .ite (Prog.leaves_pure _) ih

theorem leaves_applyDelegate : Prog.Leaves id applyDelegate := by
  refine (leaves_createDelegate 4).bind fun created => .ite ?_ (Prog.leaves_pure _)
  exact (Prog.leaves_lift _).bind fun _ => Prog.leaves_pure _

end

/-! ## Any order of calls -/

inductive DetectorCall
  | setup
  | setupCpu
  | evaluateDirect

/-- A call with the requests it made and what it returned. -/
structure DetectorCalled where
  call : DetectorCall
  requests : List (Obs Unit TfEvent TfEvent.Resp)
  ret : ℤ

/-- The libraries may answer anything. -/
def anyAnswer : Env Unit TfEvent TfEvent.Resp := fun _ _ _ _ => True

/-- `evaluate_direct` changes only the detections. -/
def DetectorStep (d : Detector) (x : DetectorCalled) (d' : Detector) : Prop :=
  match x.call with
  | .setup => Prog.Exec anyAnswer (setup.run d) () x.requests (x.ret, d') ()
  | .setupCpu => Prog.Exec anyAnswer (setupCpu.run d) () x.requests (x.ret, d') ()
  | .evaluateDirect => x.requests = [] ∧ ∃ target isContinuous invoke obj,
      d.obj.evaluateDirect target isContinuous invoke = .ok (x.ret, obj) ∧ d' = { d with obj }

/-- The call has begun to load a model. -/
def DetectorCalled.loads (x : DetectorCalled) : Bool :=
  x.requests.any fun o => decide (o.event = .buildFromFile)

/-- Whether a call that has begun to load a model succeeded. -/
def loadResult (x : Step Detector DetectorCalled) : Option Prop :=
  if x.label.loads then some (x.label.ret = 0) else none

section
variable {d d' : Detector} {x : DetectorCalled}

theorem loads_of_setUpModel {delegate : Tf Bool} {isCpu : ℤ}
    {requests : List (Obs Unit TfEvent TfEvent.Resp)} {r : ℤ × Detector}
    (h : Prog.Exec anyAnswer ((setUpModel delegate isCpu).run d) () requests r ()) :
    requests.any (fun o => decide (o.event = .buildFromFile)) = true := by
  obtain ⟨loaded, _, rest, -, rfl, -⟩ := h
  rfl

/-- Without a device nothing is touched. -/
theorem setup_step (h : Prog.Exec anyAnswer (setup.run d) () x.requests (x.ret, d') ()) :
    (x.loads = false ∧ d' = d) ∨ (x.loads = true ∧ (d'.Sound ↔ x.ret = 0)) := by
  obtain ⟨numDevices, _, rest, -, hrequests, hrest⟩ := h
  by_cases hnone : (numDevices : ℕ) = 0
  · subst hnone
    obtain ⟨rfl, hret, -⟩ := hrest
    refine Or.inl ⟨?_, (Prod.mk.inj hret).2⟩
    rw [DetectorCalled.loads, hrequests]
    rfl
  · have hmodel : Prog.Exec anyAnswer ((setUpModel applyDelegate 0).run d) () rest (x.ret, d') () := by
      change Prog.Exec anyAnswer ((if (numDevices : ℕ) = 0 then pure 1
        else setUpModel applyDelegate 0 : Tf ℤ).run d) () rest (x.ret, d') () at hrest
      rwa [if_neg hnone] at hrest
    refine Or.inr ⟨?_, (ends_setUpModel leaves_applyDelegate 0 d).exec hmodel⟩
    rw [DetectorCalled.loads, hrequests, List.any_cons, loads_of_setUpModel hmodel, Bool.or_true]

theorem evaluateDirect_sizes {target : Target} {obj obj' : MobileDetCoral} {isContinuous : Bool}
    {invoke : Option (Outputs obj.maxObjects)} {ret : ℤ}
    (h : obj.evaluateDirect target isContinuous invoke = .ok (ret, obj')) :
    obj'.inputHeight = obj.inputHeight ∧ obj'.inputWidth = obj.inputWidth ∧
      obj'.maxObjects = obj.maxObjects := by
  unfold MobileDetCoral.evaluateDirect at h
  split at h
  · obtain ⟨-, rfl⟩ := Prod.mk.inj (pure_eq_ok.mp h)
    exact ⟨rfl, rfl, rfl⟩
  · cases invoke with
    | none =>
      obtain ⟨-, rfl⟩ := Prod.mk.inj (pure_eq_ok.mp h)
      exact ⟨rfl, rfl, rfl⟩
    | some outputs =>
      obtain ⟨n, -, h⟩ := bind_eq_ok.mp h
      obtain ⟨objects, -, h⟩ := bind_eq_ok.mp h
      obtain ⟨-, rfl⟩ := Prod.mk.inj (pure_eq_ok.mp h)
      exact ⟨rfl, rfl, rfl⟩

/-- What one call does. -/
theorem DetectorStep.sound_iff (h : DetectorStep d x d') :
    d'.Sound ↔ if x.loads then x.ret = 0 else d.Sound := by
  unfold DetectorStep at h
  split at h
  · rcases setup_step h with ⟨hloads, rfl⟩ | ⟨hloads, hsound⟩
    · rw [hloads]
      exact Iff.rfl
    · rw [hloads]
      exact hsound
  · have hloads : x.loads = true := loads_of_setUpModel h
    rw [hloads]
    exact (ends_setUpModel (Prog.leaves_pure true) 1 d).exec h
  · obtain ⟨hrequests, target, isContinuous, invoke, obj, heval, rfl⟩ := h
    obtain ⟨hheight, hwidth, hobjects⟩ := evaluateDirect_sizes heval
    have hloads : x.loads = false := by
      rw [DetectorCalled.loads, hrequests]
      rfl
    rw [hloads]
    unfold Detector.Sound
    simp only [hheight, hwidth, hobjects]
    rfl

/-- The image fits if the network looks at all of its channels. -/
theorem copyInput_iff {tensors : Tensors} (h : d.Sound)
    (htensors : d.interpreter = some ⟨true, some tensors⟩) (hheight : 0 < d.obj.inputHeight.toInt)
    (hwidth : 0 < d.obj.inputWidth.toInt) :
    d.copyInput d.imageBytes = .ok () ↔ 3 ≤ tensors.channels := by
  obtain ⟨tensors', hsame, htype, hbatch, hrows, hcols, -⟩ := h
  obtain rfl : tensors' = tensors := by
    rw [htensors] at hsame
    cases hsame
    rfl
  have hpixels : 0 < d.obj.inputHeight.toInt * d.obj.inputWidth.toInt := mul_pos hheight hwidth
  have hfits : ¬ tensors'.inputBytes < d.imageBytes ↔ 3 ≤ tensors'.channels := by
    rw [not_lt, Tensors.inputBytes, Detector.imageBytes, hbatch, ← hrows, ← hcols, one_mul]
    exact Int.mul_le_mul_left hpixels
  rw [← hfits, Detector.copyInput, htensors]
  show (if ¬ tensors'.shapes.inputIsUInt8 = true then _ else _) = _ ↔ _
  rw [if_neg (not_not_intro htype)]
  split
  · next hpast => exact iff_of_false (fun h => nomatch h) (not_not_intro hpast)
  · next hwithin => exact iff_of_true rfl hwithin

end

/-- A library that finds no device, and reads a model of 320 rows and columns with three channels. -/
def workingTf : Handler Unit TfEvent TfEvent.Resp := fun e s =>
  match e with
  | .listDevices => ((0 : ℕ), s)
  | .buildFromFile => (true, s)
  | .buildInterpreter => (Built.ok, s)
  | .createDelegate => (false, s)
  | .modifyGraphWithDelegate => ((), s)
  | .allocateTensors => (some ⟨⟨true, 1, 320, 320, 100⟩, 3⟩, s)

def newDetector : Detector := ⟨⟨0, 0, [], 0, 0⟩, false, none⟩

/-- The 320 rows and columns of the network, and the interpreter behind them. -/
def cpuDetector : Detector :=
  { obj := ⟨320, 320, [], 100, 1⟩
    model := true
    interpreter := some ⟨true, some ⟨⟨true, 1, 320, 320, 100⟩, 3⟩⟩ }

end SimuSound.Detection
